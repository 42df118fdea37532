import SingboxOps.Lib.Utf8

/-
  Encoding text as UTF-8.
-/

namespace SingboxOps

/- The bytes of a code point. -/
def utf8EncodeChar (c : ℕ) : Bytes :=
  if c < 0x80 then [UInt8.ofNat c]
  else if c < 0x800 then
    [UInt8.ofNat (0xC0 + c / 64), UInt8.ofNat (0x80 + c % 64)]
  else if c < 0x10000 then
    [UInt8.ofNat (0xE0 + c / 4096), UInt8.ofNat (0x80 + c / 64 % 64), UInt8.ofNat (0x80 + c % 64)]
  else
    [UInt8.ofNat (0xF0 + c / 262144), UInt8.ofNat (0x80 + c / 4096 % 64), UInt8.ofNat (0x80 + c / 64 % 64),
      UInt8.ofNat (0x80 + c % 64)]

/- `text.encode("utf-8")` where the text has no surrogates -/
def utf8Encode (s : PyStr) : Bytes := s.flatMap utf8EncodeChar

/- A code point that is no surrogate. -/
def Scalar (c : ℕ) : Prop := c < 0xD800 ∨ (0xE000 ≤ c ∧ c < 0x110000)

instance (c : ℕ) : Decidable (Scalar c) := inferInstanceAs (Decidable (_ ∨ _))

theorem toNat_ofNat_byte {c : ℕ} (hc : c < 256) : (UInt8.ofNat c).toNat = c := UInt8.toNat_ofNat_of_lt' hc

theorem utf8DecodeFrom_more {more low high value c : ℕ}
    (hc : c < 256) (hRange : low ≤ c ∧ c ≤ high) (hMore : more ≠ 0)
    (rest : Bytes) : utf8DecodeFrom (more + 1) low high value (UInt8.ofNat c :: rest) =
      utf8DecodeFrom more 0x80 0xBF (value * 64 + (c - 0x80)) rest := by
  rw [utf8DecodeFrom]
  dsimp only
  rw [toNat_ofNat_byte hc, if_pos hRange, if_neg hMore]

theorem utf8DecodeFrom_last {low high value c : ℕ} (hc : c < 256) (hRange : low ≤ c ∧ c ≤ high)
    (rest : Bytes) :
    utf8DecodeFrom 1 low high value (UInt8.ofNat c :: rest) =
      (utf8Decode rest).map ((value * 64 + (c - 0x80)) :: ·) := by
  rw [utf8DecodeFrom]
  dsimp only
  rw [toNat_ofNat_byte hc, if_pos hRange, if_pos rfl]
  rfl

theorem utf8DecodeFrom_first {c need low high value : ℕ}
    (hc : c < 256) (hLong : ¬ c < 0x80) (hLead : utf8Lead c = some (need, low, high, value))
    (rest : Bytes) :
    utf8Decode (UInt8.ofNat c :: rest) = utf8DecodeFrom need low high value rest := by
  have hByte : ¬ (UInt8.ofNat c).toNat < 0x80 := by
    rw [toNat_ofNat_byte hc]
    exact hLong
  rw [utf8Decode, utf8DecodeFrom_lead _ _ _ _ _ hByte, toNat_ofNat_byte hc, hLead]

theorem utf8Decode_char {c : ℕ} (hc : Scalar c) (rest : Bytes) :
    utf8Decode (utf8EncodeChar c ++ rest) = (utf8Decode rest).map (c :: ·) := by
  unfold Scalar at hc
  unfold utf8EncodeChar
  split_ifs with h1 h2 h3
  · rw [List.singleton_append, utf8Decode, utf8DecodeFrom]
    rw [toNat_ofNat_byte (by omega), if_pos h1]
    rfl
  · have hLead : utf8Lead (0xC0 + c / 64) = some (1, 0x80, 0xBF, c / 64) := by
      have hBits : 0xC0 + c / 64 - 0xC0 = c / 64 := by omega
      unfold utf8Lead
      rw [if_pos (by omega), hBits]
    rw [List.cons_append, List.cons_append, List.nil_append, utf8DecodeFrom_first (by omega) (by omega) hLead,
      utf8DecodeFrom_last (by omega) (by omega)]
    have hValue : c / 64 * 64 + (0x80 + c % 64 - 0x80) = c := by omega
    rw [hValue]
  · have hLead : ∃ low high, utf8Lead (0xE0 + c / 4096) = some (2, low, high, c / 4096) ∧
            low ≤ 0x80 + c / 64 % 64 ∧
            0x80 + c / 64 % 64 ≤ high := by
      unfold utf8Lead
      by_cases hE0 : c / 4096 = 0
      · refine ⟨0xA0, 0xBF, ?_, by omega, by omega⟩
        rw [hE0]
        rfl
      · by_cases hED : c / 4096 = 13
        · refine ⟨0x80, 0x9F, ?_, by omega, by omega⟩
          rw [hED]
          rfl
        · refine ⟨0x80, 0xBF, ?_, by omega, by omega⟩
          have hBits : 0xE0 + c / 4096 - 0xE0 = c / 4096 := by omega
          rw [if_neg (by omega), if_neg (by omega),
            if_neg (by omega), if_pos (by omega), hBits]
    rcases hLead with ⟨low, high, hLead, hLow, hHigh⟩
    rw [List.cons_append, List.cons_append, List.cons_append, List.nil_append,
      utf8DecodeFrom_first (by omega) (by omega) hLead,
      utf8DecodeFrom_more (by omega) ⟨hLow, hHigh⟩ (by omega),
      utf8DecodeFrom_last (by omega) (by omega)]
    have hValue : (c / 4096 * 64 + (0x80 + c / 64 % 64 - 0x80)) * 64 + (0x80 + c % 64 - 0x80) = c := by
      omega
    rw [hValue]
  · have hLead : ∃ low high, utf8Lead (0xF0 + c / 262144) = some (3, low, high, c / 262144) ∧
            low ≤ 0x80 + c / 4096 % 64 ∧
            0x80 + c / 4096 % 64 ≤ high := by
      unfold utf8Lead
      by_cases hF0 : c / 262144 = 0
      · refine ⟨0x90, 0xBF, ?_, by omega, by omega⟩
        rw [hF0]
        rfl
      · by_cases hF4 : c / 262144 = 4
        · refine ⟨0x80, 0x8F, ?_, by omega, by omega⟩
          rw [hF4]
          rfl
        · refine ⟨0x80, 0xBF, ?_, by omega, by omega⟩
          have hBits : 0xF0 + c / 262144 - 0xF0 = c / 262144 := by omega
          rw [if_neg (by omega), if_neg (by omega),
            if_neg (by omega), if_neg (by omega),
            if_neg (by omega), if_pos (by omega), hBits]
    rcases hLead with ⟨low, high, hLead, hLow, hHigh⟩
    rw [List.cons_append, List.cons_append, List.cons_append, List.cons_append, List.nil_append,
      utf8DecodeFrom_first (by omega) (by omega) hLead,
      utf8DecodeFrom_more (by omega) ⟨hLow, hHigh⟩ (by omega),
      utf8DecodeFrom_more (by omega) (by omega) (by omega),
      utf8DecodeFrom_last (by omega) (by omega)]
    have hValue : ((c / 262144 * 64 + (0x80 + c / 4096 % 64 - 0x80)) * 64 +
            (0x80 + c / 64 % 64 - 0x80)) * 64 +
            (0x80 + c % 64 - 0x80) = c := by
      omega
    rw [hValue]

@[simp] theorem utf8Decode_utf8Encode {s : PyStr}
    (hs : ∀ c ∈ s, Scalar c) : utf8Decode (utf8Encode s) = some s := by
  induction s with
  | nil => rfl
  | cons c rest ih =>
    have hHere := hs c List.mem_cons_self
    have hRest := ih (fun d hd => hs d (List.mem_cons_of_mem _ hd))
    unfold utf8Encode at hRest ⊢
    rw [List.flatMap_cons, utf8Decode_char hHere, hRest]
    rfl

theorem length_utf8Encode_le (s : PyStr) : (utf8Encode s).length ≤ 4 * s.length := by
  unfold utf8Encode
  induction s with
  | nil => exact le_rfl
  | cons c rest ih =>
    have hChar : (utf8EncodeChar c).length ≤ 4 := by
      unfold utf8EncodeChar
      split_ifs <;> simp
    rw [List.flatMap_cons, List.length_append, List.length_cons]
    omega

theorem mem_of_mem_utf8Encode {s : PyStr} {b : UInt8} (hs : ∀ c ∈ s, Scalar c) (hMem : b ∈ utf8Encode s)
    (hAscii : b.toNat < 0x80) : b.toNat ∈ s := by
  unfold utf8Encode at hMem
  rcases List.mem_flatMap.mp hMem with ⟨c, hc, hb⟩
  have hScalar := hs c hc
  unfold Scalar at hScalar
  have hByte : ∀ n, n < 256 → 0x80 ≤ n → b ≠ UInt8.ofNat n := by
    rintro n hn hHigh rfl
    rw [toNat_ofNat_byte hn] at hAscii
    omega
  unfold utf8EncodeChar at hb
  split_ifs at hb with h1 h2 h3
  · rw [List.mem_singleton.mp hb, toNat_ofNat_byte (by omega)]
    exact hc
  all_goals
    simp only [List.mem_cons, List.not_mem_nil, or_false] at hb
    rcases hb with rfl | rfl | rfl | rfl <;>
      exact (hByte _ (by omega) (by omega) rfl).elim

-- Encoding What Was Decoded

/- A sequence that goes on has its next byte. -/
theorem utf8DecodeFrom_some {more low high value : ℕ} {bytes : Bytes} {s : PyStr}
    (h : utf8DecodeFrom (more + 1) low high value bytes = some s) :
    ∃ byte rest, bytes = byte :: rest ∧ low ≤ byte.toNat ∧ byte.toNat ≤ high ∧ (if more = 0 then
        ∃ s', utf8Decode rest = some s' ∧ s = (value * 64 + (byte.toNat - 0x80)) :: s'
      else
        utf8DecodeFrom more 0x80 0xBF (value * 64 + (byte.toNat - 0x80)) rest = some s) := by
  cases bytes with
  | nil => cases h
  | cons byte rest =>
    rw [utf8DecodeFrom] at h
    dsimp only at h
    split at h
    · rename_i hRange
      refine ⟨byte, rest, rfl, hRange.1, hRange.2, ?_⟩
      by_cases hMore : more = 0
      · rw [if_pos hMore] at h ⊢
        obtain ⟨s', hRest, hEq⟩ := Option.map_eq_some_iff.mp h
        exact ⟨s', hRest, hEq.symm⟩
      · rw [if_neg hMore] at h ⊢
        exact h
    · cases h

theorem ofNat_byte {b : UInt8} {n : ℕ} (h : n = b.toNat) : UInt8.ofNat n = b := by
  rw [h]
  exact UInt8.ofNat_toNat

/- What a first byte asks for. -/
theorem utf8Lead_some {c need low high value : ℕ} (h : utf8Lead c = some (need, low, high, value)) :
    (need = 1 ∧ low = 0x80 ∧ high = 0xBF ∧ c = 0xC0 + value ∧ 2 ≤ value ∧ value < 32) ∨
      (need = 2 ∧ c = 0xE0 + value ∧ value < 16 ∧
        0x80 ≤ low ∧ high ≤ 0xBF ∧ (value = 0 → 0xA0 ≤ low) ∧ (value = 13 → high ≤ 0x9F)) ∨
      (need = 3 ∧ c = 0xF0 + value ∧ value ≤ 4 ∧
        0x80 ≤ low ∧ high ≤ 0xBF ∧ (value = 0 → 0x90 ≤ low) ∧ (value = 4 → high ≤ 0x8F)) := by
  unfold utf8Lead at h
  split_ifs at h <;>
    simp only [Option.some.injEq, Prod.mk.injEq] at h <;>
    obtain ⟨rfl, rfl, rfl, rfl⟩ := h <;> omega

theorem utf8Decode_cons {bytes : Bytes} {s : PyStr} (hNil : bytes ≠ []) (h : utf8Decode bytes = some s) :
    ∃ c s' rest, s = c :: s' ∧ Scalar c ∧ bytes = utf8EncodeChar c ++ rest ∧ utf8Decode rest = some s' := by
  cases bytes with
  | nil => exact absurd rfl hNil
  | cons b rest =>
    by_cases hAscii : b.toNat < 0x80
    · rw [utf8Decode, utf8DecodeFrom] at h
      rw [if_pos hAscii] at h
      obtain ⟨s', hRest, rfl⟩ := Option.map_eq_some_iff.mp h
      refine ⟨b.toNat, s', rest, rfl, .inl (by omega), ?_, hRest⟩
      rw [utf8EncodeChar, if_pos hAscii, ofNat_byte rfl]
      rfl
    · rw [utf8Decode, utf8DecodeFrom_lead _ _ _ _ _ hAscii] at h
      cases hLead : utf8Lead b.toNat with
      | none =>
        rw [hLead] at h
        cases h
      | some due =>
        obtain ⟨need, low, high, value⟩ := due
        rw [hLead] at h
        dsimp only at h
        rcases utf8Lead_some hLead with ⟨rfl, rfl, rfl, hFirst, hLow, hHigh⟩ |
          ⟨rfl, hFirst, hBound, hLow, hHigh, hZero, hTop⟩ |
          ⟨rfl, hFirst, hBound, hLow, hHigh, hZero, hTop⟩
        · obtain ⟨b2, rest2, rfl, hl2, hh2, h⟩ := utf8DecodeFrom_some h
          rw [if_pos rfl] at h
          obtain ⟨s', hRest, rfl⟩ := h
          refine ⟨_, s', rest2, rfl, .inl (by omega), ?_, hRest⟩
          rw [utf8EncodeChar, if_neg (by omega), if_pos (by omega),
            ofNat_byte (b := b) (by omega),
            ofNat_byte (b := b2) (by omega)]
          rfl
        · obtain ⟨b2, rest2, rfl, hl2, hh2, h⟩ := utf8DecodeFrom_some h
          rw [if_neg (by decide)] at h
          obtain ⟨b3, rest3, rfl, hl3, hh3, h⟩ := utf8DecodeFrom_some h
          rw [if_pos rfl] at h
          obtain ⟨s', hRest, rfl⟩ := h
          refine ⟨_, s', rest3, rfl, ?_, ?_, hRest⟩
          · unfold Scalar
            omega
          · rw [utf8EncodeChar, if_neg (by omega), if_neg (by omega),
              if_pos (by omega), ofNat_byte (b := b) (by omega),
              ofNat_byte (b := b2) (by omega),
              ofNat_byte (b := b3) (by omega)]
            rfl
        · obtain ⟨b2, rest2, rfl, hl2, hh2, h⟩ := utf8DecodeFrom_some h
          rw [if_neg (by decide)] at h
          obtain ⟨b3, rest3, rfl, hl3, hh3, h⟩ := utf8DecodeFrom_some h
          rw [if_neg (by decide)] at h
          obtain ⟨b4, rest4, rfl, hl4, hh4, h⟩ := utf8DecodeFrom_some h
          rw [if_pos rfl] at h
          obtain ⟨s', hRest, rfl⟩ := h
          refine ⟨_, s', rest4, rfl, ?_, ?_, hRest⟩
          · unfold Scalar
            omega
          · rw [utf8EncodeChar, if_neg (by omega), if_neg (by omega),
              if_neg (by omega), ofNat_byte (b := b) (by omega),
              ofNat_byte (b := b2) (by omega),
              ofNat_byte (b := b3) (by omega),
              ofNat_byte (b := b4) (by omega)]
            rfl

theorem utf8Encode_of_decode {bytes : Bytes} {s : PyStr}
    (h : utf8Decode bytes = some s) : utf8Encode s = bytes ∧ ∀ c ∈ s, Scalar c := by
  induction s generalizing bytes with
  | nil =>
    by_cases hNil : bytes = []
    · rw [hNil]
      exact ⟨rfl, fun c hc => (by cases hc)⟩
    · obtain ⟨c, s', rest, hEq, -⟩ := utf8Decode_cons hNil h
      cases hEq
  | cons d s ih =>
    have hNil : bytes ≠ [] := by
      rintro rfl
      cases h
    obtain ⟨c, s', rest, hEq, hScalar, rfl, hRest⟩ := utf8Decode_cons hNil h
    cases hEq
    obtain ⟨hSame, hAll⟩ := ih hRest
    refine ⟨?_, ?_⟩
    · rw [utf8Encode, List.flatMap_cons, ← utf8Encode, hSame]
    · intro x hx
      rcases List.mem_cons.mp hx with rfl | hx
      · exact hScalar
      · exact hAll x hx

end SingboxOps
