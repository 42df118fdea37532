import SingboxOps.ClientExport.Blocks

/-
  What the parser accepts, and when it raises.

  An accepted export is the canonical head, two proxies with
  values that pass their checkers, and the canonical tail.
-/

namespace SingboxOps.ClientExport

-- The Top Level

theorem findKey_ok {lines : List PyStr} {key : PyStr} {index : ℕ}
    (h : findKey lines key = .ok index) : lines[index]? = some key := by
  unfold findKey at h
  split at h
  · rename_i hMem
    cases h
    exact List.getElem?_idxOf hMem
  · cases h

theorem findKey_not_valueError (lines : List PyStr)
    (key : PyStr) : findKey lines key ≠ .error .valueError := by
  unfold findKey
  split <;> exact fun h => nomatch h

theorem findKey_append {before : List PyStr} {key : PyStr} (h : key ∉ before)
    (rest : List PyStr) : findKey (before ++ key :: rest) key = .ok before.length := by
  unfold findKey
  rw [if_pos (List.mem_append_right _ List.mem_cons_self),
    List.idxOf_append_of_notMem h, List.idxOf_cons_self, Nat.add_zero]

theorem checkTopLevel_not_valueError (lines : List PyStr) : checkTopLevel lines ≠ .error .valueError := by
  intro h
  unfold checkTopLevel at h
  rcases except_bind_error h with hNo | ⟨_, -, h⟩
  · exact expect_not_valueError hNo
  rcases except_bind_error h with hNo | ⟨_, -, h⟩
  · exact findKey_not_valueError _ _ hNo
  rcases except_bind_error h with hNo | ⟨_, -, h⟩
  · exact findKey_not_valueError _ _ hNo
  rcases except_bind_error h with hNo | ⟨_, -, h⟩
  · exact findKey_not_valueError _ _ hNo
  rcases except_bind_error h with hNo | ⟨_, -, h⟩
  · exact expect_not_valueError hNo
  rcases except_bind_error h with hNo | ⟨_, -, h⟩
  · exact expect_not_valueError hNo
  rcases except_bind_error h with hNo | ⟨_, -, h⟩
  · exact expect_not_valueError hNo
  · cases h

theorem checkTopLevel_ok {lines : List PyStr} {s : Sections} (h : checkTopLevel lines = .ok s) :
    (∃ rest, lines = CANONICAL_PREFIX_LINES ++ PROXIES_KEY :: rest) ∧
      s.proxies_at = CANONICAL_PREFIX_LINES.length ∧
      lines[s.groups_at]? = some GROUPS_KEY ∧
      lines[s.rules_at]? = some RULES_KEY := by
  unfold checkTopLevel at h
  rcases except_bind_ok h with ⟨_, -, h⟩
  rcases except_bind_ok h with ⟨proxies_at, hProxies, h⟩
  rcases except_bind_ok h with ⟨groups_at, hGroups, h⟩
  rcases except_bind_ok h with ⟨rules_at, hRules, h⟩
  rcases except_bind_ok h with ⟨_, -, h⟩
  rcases except_bind_ok h with ⟨_, hAt, h⟩
  rcases except_bind_ok h with ⟨_, hPrefix, h⟩
  cases h
  have hAt := expect_ok_iff.mp hAt
  have hPrefix := expect_ok_iff.mp hPrefix
  have hKey := findKey_ok hProxies
  refine ⟨⟨lines.drop (proxies_at + 1), ?_⟩, hAt, findKey_ok hGroups, findKey_ok hRules⟩
  rcases List.getElem?_eq_some_iff.mp hKey with ⟨hLt, hKey⟩
  conv_lhs => rw [← List.take_append_drop proxies_at lines]
  rw [hPrefix, List.drop_eq_getElem_cons hLt, hKey]

theorem scanKeys_inner {inner : List PyStr} (h : ∀ line ∈ inner, isInner line = true)
    (rest : List PyStr) : scanKeys (inner ++ rest) = scanKeys rest := by
  induction inner with
  | nil => rfl
  | cons line inner ih =>
    rw [List.cons_append, scanKeys, h line List.mem_cons_self,
      ih (fun l hl => h l (List.mem_cons_of_mem _ hl))]
    rfl

theorem scanKeys_append {front keys : List PyStr} (h : scanKeys front = some keys)
    (rest : List PyStr) : scanKeys (front ++ rest) = (scanKeys rest).map (keys ++ ·) := by
  induction front generalizing keys with
  | nil =>
    cases h
    rw [List.nil_append]
    cases scanKeys rest <;> rfl
  | cons line front ih =>
    rw [List.cons_append, scanKeys]
    rw [scanKeys] at h
    split at h
    · rename_i hInner
      rw [if_pos hInner]
      exact ih h
    · rename_i hInner
      rw [if_neg hInner]
      split at h
      · cases h
      · rename_i hComment
        rw [if_neg hComment]
        split at h
        · cases h
        · rename_i key hKey
          cases hFront : scanKeys front with
          | none =>
            rw [hFront] at h
            cases h
          | some more =>
            rw [hFront] at h
            cases h
            rw [ih hFront, Option.map_map]
            rfl

/- A line of a specification never stands at column zero. -/
def InnerSpec (spec : List Entry) : Prop := ∀ entry ∈ spec,
    match entry with
    | .literal expected => isInner expected = true
    | .value key _ _ => key.head? = some 32

theorem isInner_of_head {key : PyStr} (h : key.head? = some 32)
    (value : PyStr) : isInner (key ++ value) = true := by
  cases key with
  | nil => cases h
  | cons c key =>
    cases h
    rfl

theorem inner_fill {spec : List Entry} (h : InnerSpec spec)
    (values : List PyStr) : ∀ line ∈ fill spec values, isInner line = true := by
  induction spec generalizing values with
  | nil =>
    intro line hLine
    cases hLine
  | cons entry spec ih =>
    have hHere := h entry List.mem_cons_self
    have hRest : InnerSpec spec := fun e he => h e (List.mem_cons_of_mem _ he)
    cases entry with
    | literal expected =>
      intro line hLine
      rcases List.mem_cons.mp hLine with rfl | hLine
      · exact hHere
      · exact ih hRest values line hLine
    | value key checker name =>
      cases values with
      | nil =>
        intro line hLine
        cases hLine
      | cons value values =>
        intro line hLine
        rcases List.mem_cons.mp hLine with rfl | hLine
        · exact isInner_of_head hHere value
        · exact ih hRest values line hLine

theorem inner_proxies (e : Export) : ∀ line ∈ e.proxies ++ [[]], isInner line = true := by
  have hReality : InnerSpec REALITY_SPEC := by
    intro entry hEntry
    fin_cases hEntry <;> rfl
  have hHead : InnerSpec HISTERIA2_HEAD := by
    intro entry hEntry
    fin_cases hEntry <;> rfl
  have hPassword : InnerSpec PASSWORD_SPEC := by
    intro entry hEntry
    fin_cases hEntry
    rfl
  have hTail : InnerSpec HISTERIA2_TAIL := by
    intro entry hEntry
    fin_cases hEntry <;> rfl
  have hHop : ∀ line ∈ hopLines e.hop, isInner line = true := by
    intro line hLine
    cases hPair : e.hop with
    | none =>
      rw [hPair] at hLine
      cases hLine
    | some pair =>
      rw [hPair] at hLine
      rcases List.mem_cons.mp hLine with rfl | hLine
      · rfl
      · rw [List.mem_singleton.mp hLine]
        rfl
  have hBandwidth : ∀ line ∈ bandwidthLines e.legacy, isInner line = true := by
    cases e.legacy <;> decide
  unfold Export.proxies
  intro line hLine
  simp only [List.mem_append, List.mem_cons, List.not_mem_nil, or_false] at hLine
  rcases hLine with (h | rfl | h | h | h | h | h) | rfl
  · exact inner_fill hReality _ line h
  · rfl
  · exact inner_fill hHead _ line h
  · exact hHop line h
  · exact inner_fill hPassword _ line h
  · exact hBandwidth line h
  · exact inner_fill hTail _ line h
  · rfl

-- The Export

/- The lines behind the proxies. -/
def tailLines : List PyStr := GROUPS_KEY :: (GROUPS_REGION ++ RULES_KEY :: (RULES_LINES ++ TRAILING_BLANKS))

/- The lines up to the proxies. -/
def headLines : List PyStr := CANONICAL_PREFIX_LINES ++ [PROXIES_KEY]

def Export.lines (e : Export) : List PyStr := headLines ++ (e.proxies ++ [] :: tailLines)

theorem length_headLines : headLines.length = CANONICAL_PREFIX_LINES.length + 1 := by
  rw [headLines, List.length_append, List.length_singleton]

theorem scanKeys_prefix : scanKeys CANONICAL_PREFIX_LINES =
      some ((TOP_LEVEL_KEYS.take 10).map (· ++ [58])) := by
  decide

theorem scanKeys_groups : scanKeys (GROUPS_KEY :: GROUPS_REGION) = some [GROUPS_KEY] := by
  decide

theorem scanKeys_rules : scanKeys (RULES_KEY :: (RULES_LINES ++ TRAILING_BLANKS)) = some [RULES_KEY] := by
  decide

theorem scanKeys_head : scanKeys headLines =
      some ((TOP_LEVEL_KEYS.take 10).map (· ++ [58]) ++ [PROXIES_KEY]) := by
  have hLast : scanKeys [PROXIES_KEY] = some [PROXIES_KEY] := by decide
  rw [headLines, scanKeys_append scanKeys_prefix, hLast]
  rfl

theorem scanKeys_tail : scanKeys tailLines = some [GROUPS_KEY, RULES_KEY] := by
  have hSplit : tailLines =
        (GROUPS_KEY :: GROUPS_REGION) ++ RULES_KEY :: (RULES_LINES ++ TRAILING_BLANKS) := by
    rw [List.cons_append]
    rfl
  rw [hSplit, scanKeys_append scanKeys_groups, scanKeys_rules]
  rfl

theorem topKey_of_mem {lines keys : List PyStr} {line : PyStr}
    (h : scanKeys lines = some keys) (hInner : isInner line = false)
    (hMem : line ∈ lines) : ∃ key ∈ keys, topKey line = some key := by
  induction lines generalizing keys with
  | nil => cases hMem
  | cons first lines ih =>
    rw [scanKeys] at h
    rcases List.mem_cons.mp hMem with rfl | hMem
    · rw [hInner, if_neg Bool.false_ne_true] at h
      split at h
      · cases h
      · split at h
        · cases h
        · rename_i key hKey
          rcases Option.map_eq_some_iff.mp h with ⟨more, -, rfl⟩
          exact ⟨key, List.mem_cons_self, hKey⟩
    · split at h
      · exact ih h hMem
      · split at h
        · cases h
        · split at h
          · cases h
          · rcases Option.map_eq_some_iff.mp h with ⟨more, hMore, rfl⟩
            rcases ih hMore hMem with ⟨key, hKey, hTop⟩
            exact ⟨key, List.mem_cons_of_mem _ hKey, hTop⟩

theorem not_mem_of_scan {lines keys : List PyStr} {key : PyStr}
    (h : scanKeys lines = some keys) (hTop : topKey key = some key)
    (hInner : isInner key = false)
    (hNot : key ∉ keys) : key ∉ lines := by
  intro hMem
  rcases topKey_of_mem h hInner hMem with ⟨other, hOther, hEq⟩
  rw [hTop] at hEq
  cases hEq
  exact hNot hOther

theorem topKey_sections : (topKey PROXIES_KEY = some PROXIES_KEY ∧ isInner PROXIES_KEY = false) ∧
      (topKey GROUPS_KEY = some GROUPS_KEY ∧ isInner GROUPS_KEY = false) ∧
      (topKey RULES_KEY = some RULES_KEY ∧ isInner RULES_KEY = false) := by
  decide

theorem keys_apart : PROXIES_KEY ∉ (TOP_LEVEL_KEYS.take 10).map (· ++ [58]) ∧ GROUPS_KEY ∉
        (TOP_LEVEL_KEYS.take 10).map (· ++ [58]) ++ [PROXIES_KEY] ∧
      RULES_KEY ∉ (TOP_LEVEL_KEYS.take 10).map (· ++ [58]) ++ [PROXIES_KEY] ∧
      RULES_KEY ∉ [GROUPS_KEY] := by
  decide

theorem top_level_keys : TOP_LEVEL_KEYS.map (· ++ [58]) =
      ((TOP_LEVEL_KEYS.take 10).map (· ++ [58]) ++ [PROXIES_KEY]) ++ [GROUPS_KEY, RULES_KEY] := by
  decide

theorem scanKeys_lines (e : Export) : scanKeys e.lines = some (TOP_LEVEL_KEYS.map (· ++ [58])) := by
  have hSplit : e.lines = headLines ++ ((e.proxies ++ [[]]) ++ tailLines) := by
    simp [Export.lines]
  rw [hSplit, scanKeys_append scanKeys_head, scanKeys_inner (inner_proxies e), scanKeys_tail, Option.map_some,
    top_level_keys]

theorem not_mem_proxies {e : Export} {key : PyStr} (h : isInner key = false) : key ∉ e.proxies ++ [[]] := by
  intro hMem
  rw [inner_proxies e key hMem] at h
  cases h

/- Where the sections of an export are. -/
def Export.sections (e : Export) : Sections where
  proxies_at := CANONICAL_PREFIX_LINES.length
  groups_at := (headLines ++ e.proxies).length + 1
  rules_at := (headLines ++ e.proxies).length + 1 + 1 + GROUPS_REGION.length

theorem checkTopLevel_lines (e : Export) : checkTopLevel e.lines = .ok e.sections := by
  have hProxies : findKey e.lines PROXIES_KEY = .ok e.sections.proxies_at := by
    have hSplit : e.lines = CANONICAL_PREFIX_LINES ++ PROXIES_KEY :: (e.proxies ++ [] :: tailLines) := by
      simp [Export.lines, headLines]
    rw [hSplit]
    exact findKey_append (not_mem_of_scan scanKeys_prefix topKey_sections.1.1
        topKey_sections.1.2 keys_apart.1) _
  have hGroups : findKey e.lines GROUPS_KEY = .ok e.sections.groups_at := by
    have hSplit : e.lines = (headLines ++ (e.proxies ++ [[]])) ++ GROUPS_KEY :: tailLines.tail := by
      simp [Export.lines, tailLines]
    have hNot : GROUPS_KEY ∉ headLines ++ (e.proxies ++ [[]]) := by
      intro hMem
      rcases List.mem_append.mp hMem with hMem | hMem
      · exact not_mem_of_scan scanKeys_head topKey_sections.2.1.1 topKey_sections.2.1.2 keys_apart.2.1 hMem
      · exact not_mem_proxies topKey_sections.2.1.2 hMem
    rw [hSplit, findKey_append hNot]
    refine congrArg Except.ok ?_
    simp only [Export.sections, List.length_append, List.length_singleton, Nat.add_assoc]
  have hRules : findKey e.lines RULES_KEY = .ok e.sections.rules_at := by
    have hSplit : e.lines = (headLines ++ ((e.proxies ++ [[]]) ++ (GROUPS_KEY :: GROUPS_REGION))) ++
            RULES_KEY :: (RULES_LINES ++ TRAILING_BLANKS) := by
      simp [Export.lines, tailLines]
    have hNot : RULES_KEY ∉ headLines ++ ((e.proxies ++ [[]]) ++ (GROUPS_KEY :: GROUPS_REGION)) := by
      intro hMem
      rcases List.mem_append.mp hMem with hMem | hMem
      · exact not_mem_of_scan scanKeys_head topKey_sections.2.2.1 topKey_sections.2.2.2 keys_apart.2.2.1 hMem
      rcases List.mem_append.mp hMem with hMem | hMem
      · exact not_mem_proxies topKey_sections.2.2.2 hMem
      · exact not_mem_of_scan scanKeys_groups topKey_sections.2.2.1
          topKey_sections.2.2.2 keys_apart.2.2.2 hMem
    rw [hSplit, findKey_append hNot]
    refine congrArg Except.ok ?_
    simp only [Export.sections, List.length_append, List.length_nil, List.length_cons]
    omega
  have hOrder : e.sections.proxies_at < e.sections.groups_at ∧
        e.sections.groups_at < e.sections.rules_at := by
    simp only [Export.sections, headLines, List.length_append, List.length_singleton]
    omega
  have hPrefix : e.lines.take e.sections.proxies_at = CANONICAL_PREFIX_LINES := by
    have hSplit : e.lines = CANONICAL_PREFIX_LINES ++ PROXIES_KEY :: (e.proxies ++ [] :: tailLines) := by
      simp [Export.lines, headLines]
    rw [hSplit]
    exact List.take_left
  exact except_bind_ok_iff.mpr ⟨_, expect_of (scanKeys_lines e),
    except_bind_ok_iff.mpr ⟨_, hProxies, except_bind_ok_iff.mpr ⟨_, hGroups,
        except_bind_ok_iff.mpr ⟨_, hRules, except_bind_ok_iff.mpr ⟨_, expect_of hOrder,
            except_bind_ok_iff.mpr ⟨_, expect_of rfl, except_bind_ok_iff.mpr ⟨_, expect_of hPrefix, rfl⟩⟩⟩⟩⟩⟩⟩

/- What a profile holds of an export. -/
structure Holds (p : Profile) (e : Export) : Prop where
  lines : p.lines = e.lines
  reality : p.blocks.reality = e.realityFields
  hysteria : p.blocks.hysteria = e.hysteriaFields

theorem parseLines_of {e : Export} (h : Accepted e) : ∃ p, parseLines e.lines = .ok p ∧ Holds p e := by
  have hAt : headLines.length = e.sections.proxies_at + 1 := by
    rw [length_headLines]
    rfl
  have hProxies : ∃ blocks, parseProxies e.lines e.sections = .ok blocks ∧ blocks.reality = e.realityFields ∧
          blocks.hysteria = e.hysteriaFields :=
    parseProxies_of h hAt rfl
  rcases hProxies with ⟨blocks, hBlocks, hReality, hHysteria⟩
  have hGroupsSplit : e.lines = (headLines ++ (e.proxies ++ [[]]) ++ [GROUPS_KEY]) ++ tailLines.tail := by
    simp [Export.lines, tailLines]
  have hGroups : parseGroups e.lines e.sections = .ok () := by
    have hLow : e.sections.groups_at + 1 = (headLines ++ (e.proxies ++ [[]]) ++ [GROUPS_KEY]).length := by
      simp [Export.sections, Nat.add_assoc]
    have hHigh : e.sections.rules_at = (headLines ++ (e.proxies ++ [[]]) ++
            [GROUPS_KEY]).length + GROUPS_REGION.length := by
      rw [← hLow]
      rfl
    unfold parseGroups
    rw [hLow, hHigh, hGroupsSplit, slice_at]
    exact expect_of List.take_left
  have hRules : parseRules e.lines e.sections = .ok () := by
    have hSplit : e.lines = (headLines ++ (e.proxies ++ [[]]) ++
            (GROUPS_KEY :: (GROUPS_REGION ++ [RULES_KEY]))) ++
            (RULES_LINES ++ TRAILING_BLANKS) := by
      simp [Export.lines, tailLines]
    have hLow : e.sections.rules_at + 1 = (headLines ++ (e.proxies ++ [[]]) ++
            (GROUPS_KEY :: (GROUPS_REGION ++ [RULES_KEY]))).length := by
      simp [Export.sections]
      omega
    have hHigh : e.sections.rules_at + 4 = (headLines ++ (e.proxies ++ [[]]) ++
            (GROUPS_KEY :: (GROUPS_REGION ++ [RULES_KEY]))).length + 3 := by
      rw [← hLow]
    unfold parseRules
    rw [hHigh, hLow, hSplit, slice_at]
    refine except_bind_ok_iff.mpr ⟨(), expect_of rfl, ?_⟩
    rw [List.drop_length_add_append]
    exact expect_of rfl
  exact ⟨⟨e.lines, e.sections, blocks⟩, except_bind_ok_iff.mpr ⟨_, checkTopLevel_lines e,
      except_bind_ok_iff.mpr ⟨_, hBlocks, except_bind_ok_iff.mpr ⟨_, hGroups,
          except_bind_ok_iff.mpr ⟨_, hRules, rfl⟩⟩⟩⟩,
    rfl, hReality, hHysteria⟩

theorem length_snoc (xs : List PyStr) (x : PyStr) : (xs ++ [x]).length = xs.length + 1 := by
  rw [List.length_append, List.length_singleton]

theorem head_of_getElem? {before rest : List PyStr} {key : PyStr} {index : ℕ} (hIndex : index = before.length)
    (h : (before ++ rest)[index]? = some key) : rest = key :: rest.tail := by
  rw [hIndex, getElem?_at] at h
  cases rest with
  | nil => cases h
  | cons line rest =>
    cases h
    rfl

theorem parseLines_ok {lines : List PyStr} {p : Profile}
    (h : parseLines lines = .ok p) : ∃ e, lines = e.lines ∧ Accepted e ∧ Holds p e := by
  unfold parseLines at h
  rcases except_bind_ok h with ⟨sections, hTop, h⟩
  rcases except_bind_ok h with ⟨blocks, hBlocks, h⟩
  rcases except_bind_ok h with ⟨_, hGroups, h⟩
  rcases except_bind_ok h with ⟨_, hRules, h⟩
  cases h
  rcases checkTopLevel_ok hTop with ⟨⟨rest, rfl⟩, hAt, hGroupsKey, hRulesKey⟩
  have hSplit : CANONICAL_PREFIX_LINES ++ PROXIES_KEY :: rest = headLines ++ rest := by
    simp [headLines]
  rw [hSplit] at hBlocks hGroups hRules hGroupsKey hRulesKey ⊢
  have hHeadLength : headLines.length = sections.proxies_at + 1 := by
    rw [hAt, length_headLines]
  have hInside : sections.groups_at < (headLines ++ rest).length :=
    (List.getElem?_eq_some_iff.mp hGroupsKey).1
  rcases parseProxies_ok hHeadLength hInside hBlocks with
    ⟨e, rest, rfl, hAccepted, hReality, hHysteria, hGroupsAt⟩
  have hSplit : headLines ++ (e.proxies ++ [] :: rest) = (headLines ++ (e.proxies ++ [[]])) ++ rest := by
    simp
  have hGroupsLength : sections.groups_at = (headLines ++ (e.proxies ++ [[]])).length := by
    rw [hGroupsAt]
    simp [Nat.add_assoc]
  rw [hSplit] at hGroups hRules hGroupsKey hRulesKey
  have hRest := head_of_getElem? hGroupsLength hGroupsKey
  generalize rest.tail = region at hRest
  subst hRest
  have hSplit : (headLines ++ (e.proxies ++ [[]])) ++ GROUPS_KEY :: region =
        (headLines ++ (e.proxies ++ [[]]) ++ [GROUPS_KEY]) ++ region := by
    simp
  have hRegionLength :
      sections.groups_at + 1 = (headLines ++ (e.proxies ++ [[]]) ++ [GROUPS_KEY]).length := by
    rw [hGroupsLength]
    exact (length_snoc _ _).symm
  rw [hSplit] at hGroups hRules hRulesKey
  unfold parseGroups at hGroups
  have hGroups := expect_ok_iff.mp hGroups
  rw [hRegionLength, slice_last] at hGroups
  have hRulesInside := (List.getElem?_eq_some_iff.mp hRulesKey).1
  rw [List.length_append] at hRulesInside
  have hCount := congrArg List.length hGroups
  rw [List.length_take] at hCount
  have hPositive : 0 < GROUPS_REGION.length := Nat.succ_pos _
  have hRulesAt : sections.rules_at =
        (headLines ++ (e.proxies ++ [[]]) ++ [GROUPS_KEY]).length + GROUPS_REGION.length := by
    omega
  have hRegion := List.take_append_drop (sections.rules_at -
      (headLines ++ (e.proxies ++ [[]]) ++ [GROUPS_KEY]).length) region
  rw [hGroups] at hRegion
  generalize region.drop (sections.rules_at - (headLines ++ (e.proxies ++ [[]]) ++ [GROUPS_KEY]).length) =
      rules at hRegion
  subst hRegion
  have hSplit : (headLines ++ (e.proxies ++ [[]]) ++ [GROUPS_KEY]) ++ (GROUPS_REGION ++ rules) =
        (headLines ++ (e.proxies ++ [[]]) ++ [GROUPS_KEY] ++ GROUPS_REGION) ++ rules := by
    simp
  have hRulesLength : sections.rules_at =
        (headLines ++ (e.proxies ++ [[]]) ++ [GROUPS_KEY] ++ GROUPS_REGION).length := by
    rw [hRulesAt, ← List.length_append]
  rw [hSplit] at hRules hRulesKey
  have hRest := head_of_getElem? hRulesLength hRulesKey
  generalize rules.tail = last at hRest
  subst hRest
  have hSplit : (headLines ++ (e.proxies ++ [[]]) ++ [GROUPS_KEY] ++ GROUPS_REGION) ++ RULES_KEY :: last =
        (headLines ++ (e.proxies ++ [[]]) ++ [GROUPS_KEY] ++ GROUPS_REGION ++ [RULES_KEY]) ++ last := by
    simp
  have hLastLength : sections.rules_at + 1 = (headLines ++ (e.proxies ++ [[]]) ++ [GROUPS_KEY] ++
          GROUPS_REGION ++ [RULES_KEY]).length := by
    rw [hRulesLength]
    exact (length_snoc _ _).symm
  have hLastEnd : sections.rules_at + 4 = (headLines ++ (e.proxies ++ [[]]) ++ [GROUPS_KEY] ++
          GROUPS_REGION ++ [RULES_KEY]).length + 3 := by
    rw [← hLastLength]
  rw [hSplit] at hRules
  rcases except_bind_ok hRules with ⟨_, hThree, hEnd⟩
  have hThree := expect_ok_iff.mp hThree
  have hEnd := expect_ok_iff.mp hEnd
  rw [hLastEnd, hLastLength, slice_at] at hThree
  rw [hLastEnd, List.drop_length_add_append] at hEnd
  have hLast := List.take_append_drop 3 last
  rw [hThree, hEnd] at hLast
  subst hLast
  refine ⟨e, ?_, hAccepted, ?_, hReality, hHysteria⟩
  · simp [Export.lines, tailLines]
  · simp [Export.lines, tailLines]

/- The parser comes to a port it cannot read. -/
def RaisesOn (lines : List PyStr) : Prop := ∃ rest sections, lines = headLines ++ rest ∧
    checkTopLevel lines = .ok sections ∧ ProxiesHalt rest

theorem parseLines_raises_iff (lines : List PyStr) :
    parseLines lines = .error .valueError ↔ RaisesOn lines := by
  unfold parseLines RaisesOn
  constructor
  · intro h
    rcases except_bind_error h with hNo | ⟨sections, hTop, h⟩
    · exact (checkTopLevel_not_valueError _ hNo).elim
    rcases checkTopLevel_ok hTop with ⟨⟨rest, rfl⟩, hAt, -⟩
    have hSplit : CANONICAL_PREFIX_LINES ++ PROXIES_KEY :: rest = headLines ++ rest := by
      simp [headLines]
    have hLength : headLines.length = sections.proxies_at + 1 := by rw [hAt, length_headLines]
    rcases except_bind_error h with hProxies | ⟨_, -, h⟩
    · rw [hSplit] at hProxies
      exact ⟨rest, sections, hSplit, hTop, (parseProxies_raises_iff hLength).mp hProxies⟩
    rcases except_bind_error h with hNo | ⟨_, -, h⟩
    · exact (expect_not_valueError hNo).elim
    rcases except_bind_error h with hNo | ⟨_, -, h⟩
    · rcases except_bind_error hNo with hNo | ⟨_, -, hNo⟩
      · exact (expect_not_valueError hNo).elim
      · exact (expect_not_valueError hNo).elim
    · cases h
  · rintro ⟨rest, sections, rfl, hTop, hHalt⟩
    have hLength : headLines.length = sections.proxies_at + 1 := by
      rw [(checkTopLevel_ok hTop).2.1, length_headLines]
    exact (except_bind_of_ok hTop).trans (except_bind_of_error ((parseProxies_raises_iff hLength).mpr hHalt))

end SingboxOps.ClientExport
