import SingboxOps.ClientExport.Agreement
import Mathlib.Data.List.Flatten

/-
  Merging two exports into one profile.

  The merge takes lines out of its sources by the indices that
  the parser has left.  What it prints is told here without
  them: a proxy is the lines from its name to the next blank.
-/

namespace SingboxOps.ClientExport

-- Names and Members

def EXPORT_SUFFIX : PyStr := pyStr "-mihomo.yaml"

def REALITY_NAME : PyStr := pyStr "Reality"

def HISTERIA2_NAME : PyStr := pyStr "Hysteria2"

def BACKUP_REALITY_NAME : PyStr := pyStr "Backup-Reality"

def BACKUP_HISTERIA2_NAME : PyStr := pyStr "Backup-Hysteria2"

def AUTO_GROUP_NAME : PyStr := pyStr "自动选择"

def DIRECT_NAME : PyStr := pyStr "DIRECT"

def DUAL_MEMBERS : List PyStr := [REALITY_NAME, HISTERIA2_NAME, BACKUP_REALITY_NAME, BACKUP_HISTERIA2_NAME]

def DUAL_AUTO_MEMBERS : List PyStr := DUAL_MEMBERS

def DUAL_OUTER_MEMBERS : List PyStr := DUAL_MEMBERS ++ [AUTO_GROUP_NAME, DIRECT_NAME]

def memberLines (names : List PyStr) : List PyStr := names.map (pyStr "      - " ++ ·)

/- The two groups with the backup pair in them. -/
def dualGroupsBlock : List PyStr := (GROUPS_SINGLE_OUTER.take 4 ++ memberLines DUAL_OUTER_MEMBERS ++
      GROUPS_SINGLE_OUTER.drop 8) ++
    [] :: (GROUPS_SINGLE_AUTO.take 3 ++ memberLines DUAL_AUTO_MEMBERS ++ GROUPS_SINGLE_AUTO.drop 5)

-- The Merge

/- The codes a merge fails with. -/
inductive MergeError where
  | primaryNotCanonical
  | backupNotCanonical
  | nameMismatch
  | sourceCollision
  | credentialReuse
  | valueError
deriving DecidableEq

inductive Which where
  | reality
  | hysteria
deriving DecidableEq

def Profile.block (p : Profile) : Which → List PyStr
  | .reality =>
    slice p.lines p.blocks.reality_at (p.blocks.reality_at + p.blocks.reality_len)
  | .hysteria =>
    (slice p.lines p.blocks.hysteria_at (p.blocks.hysteria_at + p.blocks.hysteria_len)).filter
      (fun line => !isLegacy line)

/- `profile.reality[key]`, `profile.hysteria[key]` -/
def Profile.value (p : Profile) (which : Which) (key : String) : Option PyStr := match which with
  | .reality => p.blocks.reality.get (pyStr key)
  | .hysteria => p.blocks.hysteria.get (pyStr key)

def checkSources (primary backup : Profile) : Except MergeError Unit :=
  if primary.value .reality "server" ≠ primary.value .hysteria "server" ∨
      backup.value .reality "server" ≠ backup.value .hysteria "server" ∨
      primary.value .reality "server" = backup.value .reality "server" then
    .error .sourceCollision
  else .ok ()

def checkCredentials (primary backup : Profile) : Except MergeError Unit :=
  if primary.value .reality "uuid" = backup.value .reality "uuid" ∨
      primary.value .hysteria "password" = backup.value .hysteria "password" then
    .error .credentialReuse
  else .ok ()

def nameLine (name : PyStr) : PyStr := pyStr "  - name: " ++ name

/- `renamed`: the first line is replaced. -/
def renamed (block : List PyStr) (name : PyStr) : List PyStr := nameLine name :: block.tail

/- The lines of a merged profile. -/
def mergedLines (primary backup : Profile) : List PyStr :=
  let lines := GROUPS_KEY :: (dualGroupsBlock ++ TRAILING_BLANKS)
  let proxies := primary.block .reality ++ [[]] ++ primary.block .hysteria ++ [[]] ++
      renamed (backup.block .reality) BACKUP_REALITY_NAME ++ [[]] ++
      renamed (backup.block .hysteria) BACKUP_HISTERIA2_NAME
  primary.lines.take (primary.sections.proxies_at + 1) ++ proxies ++ TRAILING_BLANKS ++ lines ++
    primary.lines.drop primary.sections.rules_at

def buildOutput (primary : Profile) : Option Profile → Bytes
  | none => utf8Encode (withoutBandwidth primary.lines)
  | some backup => utf8Encode ([10].intercalate (mergedLines primary backup))

/- A file: its base name, and what it holds. -/
structure Source where
  basename : PyStr
  raw : Bytes

/- A failure of the parser, under the code of its file. -/
def parseSource (code : MergeError) (source : Source) : Except MergeError Profile :=
  match parseExport source.raw with
  | .ok profile => .ok profile
  | .error .fail => .error code
  | .error .valueError => .error .valueError

def checkProvenance (source : Source) (name : PyStr) : Except MergeError Unit :=
  if source.basename = name ++ EXPORT_SUFFIX then .ok ()
  else .error .nameMismatch

/- `merge`, up to the payload that is written. -/
def merge (name : PyStr) (primary : Source) : Option Source → Except MergeError Bytes
  | none => do
      let p ← parseSource .primaryNotCanonical primary
      checkProvenance primary name
      return buildOutput p none
  | some backup => do
      let p ← parseSource .primaryNotCanonical primary
      let b ← parseSource .backupNotCanonical backup
      checkProvenance primary name
      checkProvenance backup name
      checkSources p b
      checkCredentials p b
      return buildOutput p (some b)

-- What the Parser Leaves

/- The profile of an export. -/
def Export.profile (e : Export) : Profile := ⟨e.lines, e.sections, e.blocksAt headLines.length⟩

theorem parseLines_profile {e : Export} (hAccepted : Accepted e) : parseLines e.lines = .ok e.profile := by
  obtain ⟨p, hParse, -⟩ := parseLines_of hAccepted
  have hExact := hParse
  unfold parseLines at hExact
  obtain ⟨sections, hTop, hExact⟩ := except_bind_ok hExact
  rw [checkTopLevel_lines] at hTop
  cases hTop
  obtain ⟨blocks, hBlocks, hExact⟩ := except_bind_ok hExact
  have hAt : headLines.length = e.sections.proxies_at + 1 := by
    rw [length_headLines]
    rfl
  have hProxies : parseProxies e.lines e.sections = .ok (e.blocksAt headLines.length) :=
    parseProxies_at hAccepted hAt rfl
  rw [hProxies] at hBlocks
  cases hBlocks
  obtain ⟨_, -, hExact⟩ := except_bind_ok hExact
  obtain ⟨_, -, hExact⟩ := except_bind_ok hExact
  rw [hParse]
  exact congrArg Except.ok (Except.ok.inj hExact).symm

theorem parseLines_exact {lines : List PyStr} {p : Profile}
    (h : parseLines lines = .ok p) : ∃ e, Accepted e ∧ lines = e.lines ∧ p = e.profile := by
  obtain ⟨e, rfl, hAccepted, -⟩ := parseLines_ok h
  rw [parseLines_profile hAccepted] at h
  exact ⟨e, hAccepted, rfl, (Except.ok.inj h).symm⟩

theorem lines_blocks (e : Export) : e.lines = headLines ++ (e.realityLines ++
      ([] :: (e.hysteriaLines ++ ([] :: tailLines)))) := by
  rw [Export.lines, Export.proxies_eq]
  simp

theorem block_reality (e : Export) : e.profile.block .reality = e.realityLines := by
  have hSlice : e.profile.block .reality = slice e.lines headLines.length
        (headLines.length + e.realityLines.length) := rfl
  rw [hSlice, lines_blocks, slice_at, List.take_left]

theorem block_hysteria (e : Export) : e.profile.block .hysteria =
      e.hysteriaLines.filter (fun line => !isLegacy line) := by
  have hSplit : e.lines =
      (headLines ++ (e.realityLines ++ [[]])) ++ (e.hysteriaLines ++ ([] :: tailLines)) := by
    rw [lines_blocks]
    simp
  have hAt : headLines.length + e.realityLines.length + 1 =
      (headLines ++ (e.realityLines ++ [[]])).length := by
    simp [Nat.add_assoc]
  have hSlice : e.profile.block .hysteria = (slice e.lines (headLines.length + e.realityLines.length + 1)
        (headLines.length + e.realityLines.length + 1 + e.hysteriaLines.length)).filter
        (fun line => !isLegacy line) := rfl
  rw [hSlice, hAt, hSplit, slice_at, List.take_left]

-- Text Without Indices

/- The lines before a line, and those from it on. -/
def upTo (key : PyStr) (lines : List PyStr) : List PyStr := lines.takeWhile (fun line => decide (line ≠ key))

def onFrom (key : PyStr) (lines : List PyStr) : List PyStr :=
  lines.dropWhile (fun line => decide (line ≠ key))

/- The lines of a proxy or a group: from its name to a blank. -/
def named (name : PyStr) (lines : List PyStr) : List PyStr := upTo [] (onFrom (nameLine name) lines)

/- What stands behind a prefix of a line. -/
def behind (start line : PyStr) : Option PyStr :=
  if start.isPrefixOf line then some (line.drop start.length) else none

def names (lines : List PyStr) : List PyStr := lines.filterMap (behind (pyStr "  - name: "))

def proxyNames (lines : List PyStr) : List PyStr := names (upTo GROUPS_KEY (onFrom PROXIES_KEY lines))

def groupNames (lines : List PyStr) : List PyStr := names (upTo RULES_KEY (onFrom GROUPS_KEY lines))

def groupMembers (lines : List PyStr) (group : PyStr) : List PyStr :=
  (named group (onFrom GROUPS_KEY lines)).filterMap (behind (pyStr "      - "))

theorem upTo_append {key : PyStr} {before : List PyStr} (h : ∀ line ∈ before, line ≠ key)
    (rest : List PyStr) : upTo key (before ++ key :: rest) = before := by
  induction before with
  | nil =>
    rw [List.nil_append, upTo, List.takeWhile_cons_of_neg]
    simp
  | cons line before ih =>
    have hHere := h line List.mem_cons_self
    have hRest := ih (fun l hl => h l (List.mem_cons_of_mem _ hl))
    unfold upTo at hRest ⊢
    rw [List.cons_append, List.takeWhile_cons_of_pos, hRest]
    exact decide_eq_true hHere

theorem onFrom_append {key : PyStr} {before : List PyStr} (h : ∀ line ∈ before, line ≠ key)
    (rest : List PyStr) : onFrom key (before ++ rest) = onFrom key rest := by
  induction before with
  | nil => rfl
  | cons line before ih =>
    have hHere := h line List.mem_cons_self
    have hRest := ih (fun l hl => h l (List.mem_cons_of_mem _ hl))
    unfold onFrom at hRest ⊢
    rw [List.cons_append, List.dropWhile_cons_of_pos, hRest]
    exact decide_eq_true hHere

theorem onFrom_self (key : PyStr) (rest : List PyStr) : onFrom key (key :: rest) = key :: rest := by
  rw [onFrom, List.dropWhile_cons_of_neg]
  simp

-- Proxies

/- A line of a proxy behind its first one. -/
def isDeep (line : PyStr) : Bool := (pyStr "    ").isPrefixOf line

def Entry.deep : Entry → Bool
  | .literal expected => isDeep expected
  | .value key _ _ => isDeep key

theorem isDeep_append {key : PyStr} (h : isDeep key = true)
    (value : PyStr) : isDeep (key ++ value) = true := by
  unfold isDeep at h ⊢
  rw [List.isPrefixOf_iff_prefix] at h ⊢
  exact h.trans (List.prefix_append key value)

theorem deep_fill {spec : List Entry} (h : spec.all Entry.deep = true)
    (values : List PyStr) : ∀ line ∈ fill spec values, isDeep line = true := by
  induction spec generalizing values with
  | nil =>
    intro line hLine
    cases hLine
  | cons entry spec ih =>
    rw [List.all_cons, Bool.and_eq_true] at h
    intro line hLine
    cases entry with
    | literal expected =>
      rcases List.mem_cons.mp hLine with rfl | hLine
      · exact h.1
      · exact ih h.2 values line hLine
    | value key checker name =>
      cases values with
      | nil => cases hLine
      | cons value values =>
        rcases List.mem_cons.mp hLine with rfl | hLine
        · exact isDeep_append h.1 value
        · exact ih h.2 values line hLine

/- The lines of a proxy of this name. -/
structure IsProxy (name : PyStr) (block : List PyStr) : Prop where
  head : block = nameLine name :: block.tail
  deep : ∀ line ∈ block.tail, isDeep line = true

theorem isProxy_reality (e : Export) : IsProxy REALITY_NAME e.realityLines := by
  have hSpec : REALITY_SPEC.tail.all Entry.deep = true := by decide
  exact ⟨rfl, deep_fill hSpec e.realityValues⟩

theorem deep_hop (hop : Option (PyStr × PyStr)) : ∀ line ∈ hopLines hop, isDeep line = true := by
  intro line hLine
  cases hop with
  | none => cases hLine
  | some pair =>
    rcases List.mem_cons.mp hLine with rfl | hLine
    · exact isDeep_append (by decide) _
    · rw [List.mem_singleton.mp hLine]
      decide

theorem isProxy_hysteria (e : Export) : IsProxy HISTERIA2_NAME e.hysteriaLines := by
  have hHead : HISTERIA2_HEAD.tail.all Entry.deep = true := by decide
  have hPassword : PASSWORD_SPEC.all Entry.deep = true := by decide
  have hTail : HISTERIA2_TAIL.all Entry.deep = true := by decide
  have hBandwidth : ∀ line ∈ bandwidthLines e.legacy, isDeep line = true := by
    cases e.legacy <;> decide
  refine ⟨rfl, ?_⟩
  intro line hLine
  have hParts : line ∈ fill HISTERIA2_HEAD.tail e.headValues ++
      (hopLines e.hop ++ (fill PASSWORD_SPEC [e.password] ++
        (bandwidthLines e.legacy ++ fill HISTERIA2_TAIL [e.sni]))) :=
    hLine
  simp only [List.mem_append] at hParts
  rcases hParts with h | h | h | h | h
  · exact deep_fill hHead _ line h
  · exact deep_hop _ line h
  · exact deep_fill hPassword _ line h
  · exact hBandwidth line h
  · exact deep_fill hTail _ line h

theorem IsProxy.renamed {name : PyStr} {block : List PyStr} (h : IsProxy name block)
    (other : PyStr) : IsProxy other (renamed block other) :=
  ⟨rfl, h.deep⟩

theorem IsProxy.apart {name : PyStr} {block : List PyStr}
    (h : IsProxy name block) {key : PyStr} (hName : nameLine name ≠ key)
    (hKey : isDeep key = false) : ∀ line ∈ block, line ≠ key := by
  intro line hLine hEq
  subst hEq
  rw [h.head] at hLine
  rcases List.mem_cons.mp hLine with hFirst | hRest
  · exact hName hFirst.symm
  · rw [h.deep line hRest] at hKey
    cases hKey

theorem nameLine_inj {a b : PyStr} (h : nameLine a = nameLine b) : a = b := List.append_cancel_left h

theorem isDeep_nameLine (name : PyStr) : isDeep (nameLine name) = false := rfl

-- Profiles of Proxies

/- The head, then proxies with a blank behind each, then the rest. -/
def assembled (proxies : List (PyStr × List PyStr)) (rest : List PyStr) : List PyStr :=
  headLines ++ (proxies.flatMap (fun p => p.2 ++ [[]]) ++ rest)

section Assembled

variable {proxies : List (PyStr × List PyStr)}
variable (hProxies : ∀ p ∈ proxies, IsProxy p.1 p.2)
include hProxies

theorem proxies_apart (key : PyStr) (hBlank : key ≠ []) (hKey : isDeep key = false)
    (hNames : ∀ p ∈ proxies, nameLine p.1 ≠ key) :
    ∀ line ∈ proxies.flatMap (fun p => p.2 ++ [[]]), line ≠ key := by
  intro line hLine
  obtain ⟨p, hp, hLine⟩ := List.mem_flatMap.mp hLine
  rcases List.mem_append.mp hLine with hBlock | hEnd
  · exact (hProxies p hp).apart (hNames p hp) hKey line hBlock
  · rw [List.mem_singleton.mp hEnd]
    exact hBlank.symm

omit hProxies in
theorem head_apart (name : PyStr) : ∀ line ∈ headLines, line ≠ nameLine name := by
  have hHead : headLines.all (fun line => !(pyStr "  - name: ").isPrefixOf line) = true := by
    decide
  intro line hLine hEq
  have hNot := List.all_eq_true.mp hHead line hLine
  rw [hEq, Bool.not_eq_true', nameLine] at hNot
  rw [List.isPrefixOf_iff_prefix.mpr (List.prefix_append _ _)] at hNot
  cases hNot

theorem named_assembled (before after : List (PyStr × List PyStr))
    {name : PyStr} {block : List PyStr} (hSplit : proxies = before ++ (name, block) :: after)
    (hNew : name ∉ before.map Prod.fst)
    (rest : List PyStr) : named name (assembled proxies rest) = block := by
  subst hSplit
  have hBlock : IsProxy name block := hProxies (name, block) (by simp)
  have hBefore : ∀ p ∈ before, IsProxy p.1 p.2 := fun p hp => hProxies p (List.mem_append_left _ hp)
  have hOther : ∀ p ∈ before, nameLine p.1 ≠ nameLine name := by
    intro p hp hEq
    exact hNew (nameLine_inj hEq ▸ List.mem_map_of_mem hp)
  have hNameBlank : nameLine name ≠ [] := by
    intro hNil
    cases hNil
  have hLines : assembled (before ++ (name, block) :: after) rest =
      headLines ++ (before.flatMap (fun p => p.2 ++ [[]]) ++ (nameLine name :: (block.tail ++
          [] :: (after.flatMap (fun p => p.2 ++ [[]]) ++ rest)))) := by
    have hFront : ∀ lines, nameLine name :: (block.tail ++ lines) = block ++ lines := by
      intro lines
      rw [← List.cons_append, ← hBlock.head]
    rw [assembled, List.flatMap_append, List.flatMap_cons, hFront]
    simp
  have hNoBlank : ∀ line ∈ nameLine name :: block.tail, line ≠ [] := by
    rw [← hBlock.head]
    exact hBlock.apart hNameBlank rfl
  rw [named, hLines, onFrom_append (head_apart name), onFrom_append (proxies_apart hBefore _ hNameBlank
      (isDeep_nameLine name) hOther), onFrom_self, ← List.cons_append,
    upTo_append hNoBlank]
  exact hBlock.head.symm

omit hProxies in
theorem behind_nameLine (name : PyStr) : behind (pyStr "  - name: ") (nameLine name) = some name := by
  rw [behind, nameLine, if_pos (List.isPrefixOf_iff_prefix.mpr (List.prefix_append _ _)), List.drop_left]

omit hProxies in
theorem behind_deep {line : PyStr} (h : isDeep line = true) : behind (pyStr "  - name: ") line = none := by
  unfold isDeep at h
  obtain ⟨rest, rfl⟩ := List.isPrefixOf_iff_prefix.mp h
  rfl

theorem names_proxies : names (proxies.flatMap (fun p => p.2 ++ [[]])) =
      proxies.map Prod.fst := by
  induction proxies with
  | nil => rfl
  | cons p proxies ih =>
    have hBlock := hProxies p List.mem_cons_self
    have hRest := ih (fun q hq => hProxies q (List.mem_cons_of_mem _ hq))
    have hDeep : names p.2.tail = [] := by
      refine List.filterMap_eq_nil_iff.mpr ?_
      intro line hLine
      exact behind_deep (hBlock.deep line hLine)
    have hNames : names p.2 = [p.1] := by
      rw [hBlock.head, names, List.filterMap_cons, behind_nameLine]
      exact congrArg _ hDeep
    have hBlank : names [[]] = [] := by decide
    unfold names at hRest hNames hBlank ⊢
    rw [List.flatMap_cons, List.filterMap_append, List.filterMap_append, hNames, hBlank, hRest]
    rfl

/- The sections of a profile, where its groups follow on blanks. -/
theorem sections_assembled (blanks groups rules : List PyStr) (hBlanks : ∀ line ∈ blanks, line = [])
    (hGroups : ∀ line ∈ groups, line ≠ RULES_KEY) : upTo PROXIES_KEY (assembled proxies
        (blanks ++ GROUPS_KEY :: (groups ++ RULES_KEY :: rules))) =
        CANONICAL_PREFIX_LINES ∧
      proxyNames (assembled proxies
        (blanks ++ GROUPS_KEY :: (groups ++ RULES_KEY :: rules))) = proxies.map Prod.fst ∧
      onFrom GROUPS_KEY (assembled proxies (blanks ++ GROUPS_KEY :: (groups ++ RULES_KEY :: rules))) =
          GROUPS_KEY :: (groups ++ RULES_KEY :: rules) ∧
      onFrom RULES_KEY (assembled proxies
        (blanks ++ GROUPS_KEY :: (groups ++ RULES_KEY :: rules))) = RULES_KEY :: rules := by
  have hPrefix : ∀ line ∈ CANONICAL_PREFIX_LINES, line ≠ PROXIES_KEY := by
    decide
  have hHead : ∀ line ∈ headLines, line ≠ GROUPS_KEY ∧ line ≠ RULES_KEY := by
    decide
  have hNotName : ∀ key : PyStr, key.head? ≠ some 32 → ∀ p ∈ proxies, nameLine p.1 ≠ key := by
    intro key hKey p _ hEq
    rw [← hEq] at hKey
    exact hKey rfl
  have hGroupsKey := proxies_apart hProxies GROUPS_KEY (by decide) (by decide)
    (hNotName _ (by decide))
  have hRulesKey := proxies_apart hProxies RULES_KEY (by decide) (by decide)
    (hNotName _ (by decide))
  have hBlankKeys : ∀ line ∈ blanks, line ≠ GROUPS_KEY ∧ line ≠ RULES_KEY := by
    intro line hLine
    rw [hBlanks line hLine]
    decide
  have hProxiesKey : assembled proxies (blanks ++ GROUPS_KEY :: (groups ++ RULES_KEY :: rules)) =
      CANONICAL_PREFIX_LINES ++ PROXIES_KEY :: (proxies.flatMap (fun p => p.2 ++ [[]]) ++
          (blanks ++ GROUPS_KEY :: (groups ++ RULES_KEY :: rules))) := by
    simp [assembled, headLines]
  refine ⟨?_, ?_, ?_, ?_⟩
  · rw [hProxiesKey, upTo_append hPrefix]
  · have hFront : ∀ line ∈ PROXIES_KEY :: (proxies.flatMap (fun p => p.2 ++ [[]]) ++ blanks),
        line ≠ GROUPS_KEY := by
      intro line hLine
      rcases List.mem_cons.mp hLine with rfl | hLine
      · decide
      · rcases List.mem_append.mp hLine with h | h
        · exact hGroupsKey line h
        · exact (hBlankKeys line h).1
    have hNoNames : names blanks = [] := by
      refine List.filterMap_eq_nil_iff.mpr ?_
      intro line hLine
      rw [hBlanks line hLine]
      decide
    have hSame := names_proxies hProxies
    rw [proxyNames, hProxiesKey, onFrom_append hPrefix, onFrom_self,
      ← List.append_assoc, ← List.cons_append, upTo_append hFront]
    unfold names at hNoNames hSame ⊢
    rw [List.filterMap_cons, List.filterMap_append, hNoNames, hSame, List.append_nil]
    rfl
  · rw [assembled, onFrom_append (fun l hl => (hHead l hl).1), onFrom_append hGroupsKey,
      onFrom_append (fun l hl => (hBlankKeys l hl).1), onFrom_self]
  · have hFirst : GROUPS_KEY ≠ RULES_KEY := by decide
    rw [assembled, onFrom_append (fun l hl => (hHead l hl).2), onFrom_append hRulesKey,
      onFrom_append (fun l hl => (hBlankKeys l hl).2),
      ← List.cons_append, onFrom_append, onFrom_self]
    intro line hLine
    rcases List.mem_cons.mp hLine with rfl | hLine
    · exact hFirst
    · exact hGroups line hLine

end Assembled

theorem lines_assembled (e : Export) : e.lines = assembled
      [(REALITY_NAME, e.realityLines), (HISTERIA2_NAME, e.hysteriaLines)]
      ([] ++ GROUPS_KEY :: (GROUPS_REGION ++ RULES_KEY :: (RULES_LINES ++ TRAILING_BLANKS))) := by
  rw [lines_blocks]
  simp [assembled, tailLines]

theorem isProxy_lines (e : Export) : ∀ p ∈ [(REALITY_NAME, e.realityLines),
      (HISTERIA2_NAME, e.hysteriaLines)], IsProxy p.1 p.2 := by
  intro p hp
  rcases List.mem_cons.mp hp with rfl | hp
  · exact isProxy_reality e
  · rw [List.mem_singleton.mp hp]
    exact isProxy_hysteria e

theorem named_lines (e : Export) : named REALITY_NAME e.lines = e.realityLines ∧
      named HISTERIA2_NAME e.lines = e.hysteriaLines := by
  rw [lines_assembled]
  refine ⟨named_assembled (isProxy_lines e) [] _ rfl List.not_mem_nil _,
    named_assembled (isProxy_lines e) [(REALITY_NAME, e.realityLines)] _ rfl ?_ _⟩
  have hApart : HISTERIA2_NAME ∉ [REALITY_NAME] := by decide
  exact hApart

/- The four proxies of a merge. -/
def dualProxies (p b : Export) : List (PyStr × List PyStr) :=
  [(REALITY_NAME, p.realityLines), (HISTERIA2_NAME, p.plain.hysteriaLines),
    (BACKUP_REALITY_NAME, renamed b.realityLines BACKUP_REALITY_NAME),
    (BACKUP_HISTERIA2_NAME, renamed b.plain.hysteriaLines BACKUP_HISTERIA2_NAME)]

theorem isProxy_dual (p b : Export) : ∀ q ∈ dualProxies p b, IsProxy q.1 q.2 := by
  intro q hq
  unfold dualProxies at hq
  simp only [List.mem_cons, List.not_mem_nil, or_false] at hq
  rcases hq with rfl | rfl | rfl | rfl
  · exact isProxy_reality p
  · exact isProxy_hysteria p.plain
  · exact (isProxy_reality b).renamed _
  · exact (isProxy_hysteria b.plain).renamed _

theorem rules_lines (e : Export) : e.lines.drop e.sections.rules_at =
      RULES_KEY :: (RULES_LINES ++ TRAILING_BLANKS) := by
  have hSplit : e.lines = (headLines ++ e.proxies ++ [] :: GROUPS_KEY :: GROUPS_REGION) ++
        RULES_KEY :: (RULES_LINES ++ TRAILING_BLANKS) := by
    simp [Export.lines, tailLines]
  have hAt : e.sections.rules_at = (headLines ++ e.proxies ++ [] :: GROUPS_KEY :: GROUPS_REGION).length := by
    simp [Export.sections]
    omega
  rw [hAt, hSplit, List.drop_left]

theorem mergedLines_eq (p b : Export) : mergedLines p.profile b.profile =
      assembled (dualProxies p b) ([[]] ++ GROUPS_KEY :: ((dualGroupsBlock ++ TRAILING_BLANKS) ++
          RULES_KEY :: (RULES_LINES ++ TRAILING_BLANKS))) := by
  have hHead : p.profile.lines.take (p.profile.sections.proxies_at + 1) =
      headLines := by
    have hAt : p.profile.sections.proxies_at + 1 = headLines.length := by
      rw [length_headLines]
      rfl
    rw [hAt]
    exact List.take_left
  have hRules : p.profile.lines.drop p.profile.sections.rules_at =
      RULES_KEY :: (RULES_LINES ++ TRAILING_BLANKS) := rules_lines p
  rw [mergedLines, hHead, hRules]
  simp only [block_reality, block_hysteria, filter_hysteria]
  simp [assembled, dualProxies, TRAILING_BLANKS]

-- Reading Fewer Lines

theorem intercalate_sublist {lines all : List PyStr} (h : lines.Sublist all)
    (hNil : lines ≠ []) : ([10].intercalate lines).Sublist ([10].intercalate all) := by
  induction h with
  | slnil => exact absurd rfl hNil
  | @cons few most line hSub ih =>
    have hFew := ih hNil
    cases most with
    | nil =>
      cases hSub
      exact absurd rfl hNil
    | cons next most =>
      rw [List.intercalate_cons_cons]
      exact hFew.trans (List.sublist_append_right _ _)
  | @cons_cons few most line hSub ih =>
    cases few with
    | nil =>
      cases most with
      | nil => exact List.Sublist.refl _
      | cons next most =>
        rw [List.intercalate_cons_cons, List.append_assoc]
        simp [List.intercalate]
    | cons first few =>
      have hFew := ih (List.cons_ne_nil _ _)
      cases most with
      | nil => cases hSub
      | cons next most =>
        rw [List.intercalate_cons_cons, List.intercalate_cons_cons]
        exact (List.Sublist.refl _).append hFew

theorem readExport_sublist {raw : Bytes} {all lines : List PyStr}
    (h : readExport raw = .ok all) (hSub : lines.Sublist all)
    (hNil : lines ≠ []) : readExport (utf8Encode ([10].intercalate lines)) = .ok lines := by
  have hNewline := readExport_ok h
  unfold readExport at h
  obtain ⟨_, hRaw, h⟩ := except_bind_ok h
  obtain ⟨hLength, hZero, hTab⟩ := expect_ok_iff.mp hRaw
  cases hDecode : utf8Decode raw with
  | none =>
    rw [hDecode] at h
    cases h
  | some text =>
    rw [hDecode] at h
    obtain ⟨_, hReturn, h⟩ := except_bind_ok h
    have hReturn := expect_ok_iff.mp hReturn
    have hAll := (Except.ok.inj h).symm
    obtain ⟨hEncode, hScalar⟩ := utf8Encode_of_decode hDecode
    have hText : [10].intercalate all = text := by
      rw [hAll]
      exact List.intercalate_splitOn 10
    have hFew := intercalate_sublist hSub hNil
    rw [hText] at hFew
    have hBytes : (utf8Encode ([10].intercalate lines)).Sublist raw := by
      rw [← hEncode]
      exact hFew.flatMap _
    have hFewScalar : ∀ c ∈ [10].intercalate lines, Scalar c := fun c hc => hScalar c (hFew.subset hc)
    have hLines : ([10].intercalate lines).splitOn 10 = lines := List.splitOn_intercalate 10
        (fun line hLine => hNewline line (hSub.subset hLine)) hNil
    unfold readExport
    refine except_bind_ok_iff.mpr ⟨(), expect_of ⟨hBytes.length_le.trans hLength,
        fun hMem => hZero (hBytes.subset hMem),
        fun hMem => hTab (hBytes.subset hMem)⟩, ?_⟩
    rw [utf8Decode_utf8Encode hFewScalar]
    refine except_bind_ok_iff.mpr ⟨(), expect_of (fun hMem => hReturn (hFew.subset hMem)), ?_⟩
    rw [hLines]
    rfl

theorem parseExport_plain {raw : Bytes} {e : Export} (hAccepted : Accepted e)
    (h : readExport raw = .ok e.lines) :
    parseExport (utf8Encode ([10].intercalate e.plain.lines)) = .ok e.plain.profile := by
  have hSub : e.plain.lines.Sublist e.lines := by
    rw [← filter_lines]
    exact List.filter_sublist
  have hPlain : Accepted e.plain := ⟨hAccepted.reality, hAccepted.head, hAccepted.hop,
      hAccepted.password, hAccepted.tail⟩
  exact (except_bind_of_ok (readExport_sublist h hSub
    (lines_ne_nil e.plain))).trans (parseLines_profile hPlain)

theorem parseExport_exact {raw : Bytes} {p : Profile} (h : parseExport raw = .ok p) :
    ∃ e, Accepted e ∧ p = e.profile ∧ readExport raw = .ok e.lines := by
  unfold parseExport at h
  obtain ⟨lines, hRead, hParse⟩ := except_bind_ok h
  obtain ⟨e, hAccepted, rfl, rfl⟩ := parseLines_exact hParse
  exact ⟨e, hAccepted, rfl, hRead⟩

-- The Law of the Merge

/- The fields a profile was read with. -/
def SameFields (p q : Profile) : Prop :=
  p.blocks.reality = q.blocks.reality ∧ p.blocks.hysteria = q.blocks.hysteria

/- One pair of a merged profile, under the names of an export. -/
def keepPair (first second : PyStr) (merged : List PyStr) : List PyStr :=
  upTo PROXIES_KEY merged ++ PROXIES_KEY :: (renamed (named first merged) REALITY_NAME ++ [] ::
      (renamed (named second merged) HISTERIA2_NAME ++ [] ::
        GROUPS_KEY :: (GROUPS_REGION ++ onFrom RULES_KEY merged)))

/- The lines are an export's again, with the fields of the profile. -/
def Restores (p : Profile) (lines : List PyStr) : Prop :=
  ∃ q, parseExport (utf8Encode ([10].intercalate lines)) = .ok q ∧ SameFields q p

/- What the lines of a merged profile are. -/
structure Merged (primary backup merged : List PyStr) : Prop where
  whole :
    merged = upTo PROXIES_KEY primary ++ PROXIES_KEY ::
      (named REALITY_NAME primary ++ [] :: ((named HISTERIA2_NAME primary).filter
            (fun line => !isLegacy line) ++ [] ::
          (renamed (named REALITY_NAME backup) BACKUP_REALITY_NAME ++
            [] :: (renamed ((named HISTERIA2_NAME backup).filter
                (fun line => !isLegacy line)) BACKUP_HISTERIA2_NAME ++
              [] :: [] :: GROUPS_KEY :: (dualGroupsBlock ++ [] :: [] :: onFrom RULES_KEY primary)))))
  distinct : (proxyNames merged).Nodup
  automatic : groupMembers merged AUTO_GROUP_NAME = proxyNames merged
  members : ∀ group ∈ groupNames merged, ∀ member ∈ groupMembers merged group,
      member ∈ proxyNames merged ∨ member ∈ groupNames merged ∨ member = DIRECT_NAME

/- The groups of a merged profile are fixed. -/
theorem groups_dual : (∀ line ∈ dualGroupsBlock ++ TRAILING_BLANKS, line ≠ RULES_KEY) ∧
      names (upTo RULES_KEY (GROUPS_KEY :: ((dualGroupsBlock ++ TRAILING_BLANKS) ++
          RULES_KEY :: (RULES_LINES ++ TRAILING_BLANKS)))) =
        [pyStr "节点选择", AUTO_GROUP_NAME] ∧
      (named AUTO_GROUP_NAME (GROUPS_KEY :: ((dualGroupsBlock ++ TRAILING_BLANKS) ++
          RULES_KEY :: (RULES_LINES ++ TRAILING_BLANKS)))).filterMap
          (behind (pyStr "      - ")) = DUAL_AUTO_MEMBERS ∧
      (named (pyStr "节点选择") (GROUPS_KEY :: ((dualGroupsBlock ++ TRAILING_BLANKS) ++
          RULES_KEY :: (RULES_LINES ++ TRAILING_BLANKS)))).filterMap
          (behind (pyStr "      - ")) = DUAL_OUTER_MEMBERS := by
  decide

theorem groups_region : ∀ line ∈ GROUPS_REGION, line ≠ RULES_KEY := by decide

theorem mergedLines_merged (p b : Export) : Merged p.lines b.lines (mergedLines p.profile b.profile) := by
  obtain ⟨hNoRules, hGroups, hAuto, hOuter⟩ := groups_dual
  obtain ⟨-, hNames, hFrom, -⟩ := sections_assembled (isProxy_dual p b) [[]] _
      (RULES_LINES ++ TRAILING_BLANKS)
      (fun line hLine => List.mem_singleton.mp hLine) hNoRules
  obtain ⟨hPrefix, -, -, hRules⟩ := sections_assembled (isProxy_lines p) [] _ (RULES_LINES ++ TRAILING_BLANKS)
      (fun line hLine => (by cases hLine)) groups_region
  rw [← lines_assembled] at hPrefix hRules
  rw [← mergedLines_eq] at hNames hFrom
  have hProxyNames : proxyNames (mergedLines p.profile b.profile) = DUAL_MEMBERS := hNames
  have hGroupNames : groupNames (mergedLines p.profile b.profile) = [pyStr "节点选择", AUTO_GROUP_NAME] := by
    rw [groupNames, hFrom, hGroups]
  have hAutoMembers : groupMembers (mergedLines p.profile b.profile) AUTO_GROUP_NAME = DUAL_AUTO_MEMBERS := by
    rw [groupMembers, hFrom, hAuto]
  have hOuterMembers : groupMembers (mergedLines p.profile b.profile)
          (pyStr "节点选择") = DUAL_OUTER_MEMBERS := by
    rw [groupMembers, hFrom, hOuter]
  refine ⟨?_, ?_, ?_, ?_⟩
  · rw [hPrefix, hRules, (named_lines p).1, (named_lines p).2,
      (named_lines b).1, (named_lines b).2, filter_hysteria,
      filter_hysteria, mergedLines_eq]
    simp [assembled, dualProxies, headLines, TRAILING_BLANKS]
  · rw [hProxyNames]
    decide
  · rw [hAutoMembers, hProxyNames]
    rfl
  · rw [hGroupNames, hProxyNames]
    intro group hGroup member hMember
    rcases List.mem_cons.mp hGroup with rfl | hGroup
    · rw [hOuterMembers] at hMember
      revert hMember
      revert member
      decide
    · rw [List.mem_singleton.mp hGroup, hAutoMembers] at hMember
      exact .inl hMember

theorem renamed_self {name : PyStr} {block : List PyStr}
    (h : IsProxy name block) : renamed block name = block :=
  h.head.symm

theorem keepPair_merged (p b : Export) : keepPair REALITY_NAME HISTERIA2_NAME
        (mergedLines p.profile b.profile) = p.plain.lines ∧
      keepPair BACKUP_REALITY_NAME BACKUP_HISTERIA2_NAME
        (mergedLines p.profile b.profile) = b.plain.lines := by
  have hDual := isProxy_dual p b
  obtain ⟨hPrefix, -, -, hRules⟩ := sections_assembled hDual [[]] _ (RULES_LINES ++ TRAILING_BLANKS)
      (fun line hLine => List.mem_singleton.mp hLine) groups_dual.1
  have hFind : ∀ before name block after,
        dualProxies p b = before ++ (name, block) :: after → name ∉ before.map Prod.fst →
            named name (mergedLines p.profile b.profile) = block := by
    intro before name block after hSplit hNew
    rw [mergedLines_eq]
    exact named_assembled hDual before after hSplit hNew _
  have hSecond : HISTERIA2_NAME ∉ [REALITY_NAME] := by decide
  have hThird : BACKUP_REALITY_NAME ∉ [REALITY_NAME, HISTERIA2_NAME] := by decide
  have hFourth : BACKUP_HISTERIA2_NAME ∉ [REALITY_NAME, HISTERIA2_NAME, BACKUP_REALITY_NAME] := by
    decide
  have h1 := hFind [] REALITY_NAME _ _ rfl List.not_mem_nil
  have h2 := hFind [_] HISTERIA2_NAME _ _ rfl hSecond
  have h3 := hFind [_, _] BACKUP_REALITY_NAME _ _ rfl hThird
  have h4 := hFind [_, _, _] BACKUP_HISTERIA2_NAME _ _ rfl hFourth
  rw [← mergedLines_eq] at hPrefix hRules
  have hAgain : ∀ block : List PyStr, ∀ name other,
        renamed (renamed block name) other = renamed block other :=
    fun _ _ _ => rfl
  constructor
  · rw [keepPair, hPrefix, hRules, h1, h2, renamed_self (isProxy_reality p),
      renamed_self (isProxy_hysteria p.plain), lines_assembled]
    simp only [assembled, headLines, List.flatMap_cons, List.flatMap_nil,
      List.append_assoc, List.cons_append, List.nil_append]
    rfl
  · rw [keepPair, hPrefix, hRules, h3, h4, hAgain, hAgain, renamed_self (isProxy_reality b),
      renamed_self (isProxy_hysteria b.plain), lines_assembled]
    simp only [assembled, headLines, List.flatMap_cons, List.flatMap_nil,
      List.append_assoc, List.cons_append, List.nil_append]
    rfl

theorem restores_plain {raw : Bytes} {e : Export} (hAccepted : Accepted e)
    (h : readExport raw = .ok e.lines) : Restores e.profile e.plain.lines :=
  ⟨_, parseExport_plain hAccepted h, rfl, rfl⟩

theorem parseSource_of {code : MergeError} {source : Source} {p : Profile}
    (h : parseExport source.raw = .ok p) : parseSource code source = .ok p := by
  rw [parseSource, h]

theorem merge_of {name : PyStr} {primary backup : Source} {p b : Profile}
    (hPrimary : parseExport primary.raw = .ok p)
    (hBackup : parseExport backup.raw = .ok b) (hSources : checkSources p b = .ok ())
    (hCredentials : checkCredentials p b = .ok ())
    (hOwn : primary.basename = name ++ EXPORT_SUFFIX)
    (hOther : backup.basename = name ++ EXPORT_SUFFIX) :
    merge name primary (some backup) = .ok (buildOutput p (some b)) ∧
      merge name primary none = .ok (buildOutput p none) := by
  have hFirst : parseSource .primaryNotCanonical primary = .ok p := parseSource_of hPrimary
  have hSecond : parseSource .backupNotCanonical backup = .ok b := parseSource_of hBackup
  constructor
  · unfold merge
    dsimp only
    refine except_bind_ok_iff.mpr ⟨_, hFirst, ?_⟩
    refine except_bind_ok_iff.mpr ⟨_, hSecond, ?_⟩
    refine except_bind_ok_iff.mpr ⟨_, if_pos hOwn, ?_⟩
    refine except_bind_ok_iff.mpr ⟨_, if_pos hOther, ?_⟩
    refine except_bind_ok_iff.mpr ⟨_, hSources, ?_⟩
    exact except_bind_ok_iff.mpr ⟨_, hCredentials, rfl⟩
  · unfold merge
    dsimp only
    refine except_bind_ok_iff.mpr ⟨_, hFirst, ?_⟩
    exact except_bind_ok_iff.mpr ⟨_, if_pos hOwn, rfl⟩

/-
  A merge of two exports is the primary's profile with the
  backup's proxies in it, each pair of it is an export with the
  fields it had; and one export alone becomes an export with its
  fields, which the merge leaves as it is.
-/
theorem merge_law {primary backup : Source} {p b : Profile} (hPrimary : parseExport primary.raw = .ok p)
    (hBackup : parseExport backup.raw = .ok b) (hSources : checkSources p b = .ok ())
    (hCredentials : checkCredentials p b = .ok ()) : (∃ merged,
      buildOutput p (some b) = utf8Encode ([10].intercalate merged) ∧ Merged p.lines b.lines merged ∧
        Restores p (keepPair REALITY_NAME HISTERIA2_NAME merged) ∧
        Restores b (keepPair BACKUP_REALITY_NAME BACKUP_HISTERIA2_NAME merged)) ∧
      (∃ q, parseExport (buildOutput p none) = .ok q ∧
        SameFields q p ∧ buildOutput q none = buildOutput p none) ∧
      ∀ name, primary.basename = name ++ EXPORT_SUFFIX → backup.basename = name ++ EXPORT_SUFFIX →
        merge name primary (some backup) = .ok (buildOutput p (some b)) ∧
          merge name primary none = .ok (buildOutput p none) := by
  refine ⟨?_, ?_, fun name hOwn hOther =>
    merge_of hPrimary hBackup hSources hCredentials hOwn hOther⟩
  · obtain ⟨e, hAccepted, rfl, hRead⟩ := parseExport_exact hPrimary
    obtain ⟨f, hBackupOk, rfl, hBackupRead⟩ := parseExport_exact hBackup
    obtain ⟨hKeep, hKeepBackup⟩ := keepPair_merged e f
    refine ⟨mergedLines e.profile f.profile, rfl, mergedLines_merged e f, ?_, ?_⟩
    · rw [hKeep]
      exact restores_plain hAccepted hRead
    · rw [hKeepBackup]
      exact restores_plain hBackupOk hBackupRead
  · obtain ⟨e, hAccepted, rfl, hRead⟩ := parseExport_exact hPrimary
    have hAlone : buildOutput e.profile none = utf8Encode ([10].intercalate e.plain.lines) :=
      congrArg utf8Encode (withoutBandwidth_lines e)
    have hAgain : buildOutput e.plain.profile none = utf8Encode ([10].intercalate e.plain.lines) :=
      congrArg utf8Encode (withoutBandwidth_lines e.plain)
    refine ⟨e.plain.profile, ?_, ⟨rfl, rfl⟩, hAgain.trans hAlone.symm⟩
    rw [hAlone]
    exact parseExport_plain hAccepted hRead

/- The facts of a second server. -/
def backupFacts : Facts :=
  { plainFacts with
    server_ip := pyStr "198.51.100.9"
    reality_uuid := pyStr "7a1c9d5e-2b3f-4a60-8c1d-9e0f1a2b3c4d"
    hy_password := pyStr "0123456789abcdef" }

theorem wellFormed_backupFacts : WellFormed backupFacts := by
  have h := wellFormed_plainFacts
  exact ⟨by decide, by decide, by decide,
    h.realityPort, by decide, h.serverName, h.publicKey,
    h.shortId, h.hysteriaPort, by decide, h.hysteriaName⟩

/- The file of some facts, as a client downloads it. -/
def sourceOf (f : Facts) : Source := ⟨pyStr "phone-mihomo.yaml", utf8Encode (cm_render_client_mihomo_yaml f)⟩

theorem sourceOf_read {f : Facts} (hWell : WellFormed f) (hPlain : f.hopping = false) :
    ∃ p, parseExport (sourceOf f).raw = .ok p ∧ Holds p f.export := by
  refine (recovers_iff hWell).mpr ?_
  intro hHop
  rw [hPlain] at hHop
  cases hHop

theorem sources_apart : ∀ p b, Holds p plainFacts.export → Holds b backupFacts.export →
      checkSources p b = .ok () ∧ checkCredentials p b = .ok () := by
  intro p b hp hb
  unfold checkSources checkCredentials Profile.value
  simp only [hp.reality, hp.hysteria, hb.reality, hb.hysteria]
  decide

/- Two servers are merged. -/
theorem merge_law_at_two : ∃ (p b : Profile) (merged : List PyStr),
      parseExport (sourceOf plainFacts).raw = .ok p ∧
        merge (pyStr "phone") (sourceOf plainFacts) (some (sourceOf backupFacts)) =
          .ok (utf8Encode ([10].intercalate merged)) ∧
        Merged p.lines b.lines merged := by
  obtain ⟨p, hp, hPrimary⟩ := sourceOf_read wellFormed_plainFacts (by decide)
  obtain ⟨b, hb, hBackup⟩ := sourceOf_read wellFormed_backupFacts (by decide)
  obtain ⟨hSources, hCredentials⟩ := sources_apart p b hPrimary hBackup
  have hNames : pyStr "phone-mihomo.yaml" = pyStr "phone" ++ EXPORT_SUFFIX := by
    decide
  obtain ⟨⟨merged, hBuilt, hMerged, -⟩, -, hMerge⟩ := merge_law hp hb hSources hCredentials
  have hDone := (hMerge (pyStr "phone") hNames hNames).1
  rw [hBuilt] at hDone
  exact ⟨p, b, merged, hp, hDone, hMerged⟩

end SingboxOps.ClientExport
