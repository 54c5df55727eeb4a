import TableModels.Text.Utf8

/-! Bytes that are read as text are what the text is encoded as. -/

namespace TableModels.Text

private theorem continueChar_succ {missing read low high code full : Nat} {rest after : List UInt8} :
    continueChar (missing + 1) read low high code rest = .ok (full, after) ↔
      ∃ byte others, rest = byte :: others ∧ (low ≤ byte.toNat ∧ byte.toNat ≤ high) ∧
        continueChar missing (read + 1) 0x80 0xBF (code * 0x40 + (byte.toNat - 0x80)) others = .ok (full, after) := by
  constructor
  · intro ends
    cases rest with
    | nil => simp [continueChar] at ends
    | cons byte others =>
      rw [continueChar] at ends
      split at ends
      · contradiction
      · rename_i inside
        refine ⟨byte, others, rfl, ?_, ends⟩
        simpa [Nat.not_lt] using inside
  · rintro ⟨byte, others, rfl, inside, ends⟩
    rw [continueChar, if_neg (by simpa [Nat.not_lt] using inside), ends]

private theorem continueChar_zero {read low high code full : Nat} {rest after : List UInt8} :
    continueChar 0 read low high code rest = .ok (full, after) ↔ code = full ∧ rest = after := by
  simp [continueChar]

private theorem lead?_eq_some {byte : Nat} {lead : Lead} (found : lead? byte = some lead) :
    lead = ⟨byte - 0xC0, 1, 0x80, 0xBF⟩ ∧ 0xC2 ≤ byte ∧ byte ≤ 0xDF ∨
    lead = ⟨byte - 0xE0, 2, if byte = 0xE0 then 0xA0 else 0x80, if byte = 0xED then 0x9F else 0xBF⟩ ∧
      0xE0 ≤ byte ∧ byte ≤ 0xEF ∨
    lead = ⟨byte - 0xF0, 3, if byte = 0xF0 then 0x90 else 0x80, if byte = 0xF4 then 0x8F else 0xBF⟩ ∧
      0xF0 ≤ byte ∧ byte ≤ 0xF4 := by
  simp only [lead?, Bool.and_eq_true, decide_eq_true_eq, beq_iff_eq] at found
  grind

private theorem lead?_two {byte : Nat} (low : 0xC2 ≤ byte) (high : byte ≤ 0xDF) :
    lead? byte = some ⟨byte - 0xC0, 1, 0x80, 0xBF⟩ := by
  simp [lead?, low, high]

private theorem lead?_three {byte : Nat} (low : 0xE0 ≤ byte) (high : byte ≤ 0xEF) : lead? byte =
    some ⟨byte - 0xE0, 2, if byte = 0xE0 then 0xA0 else 0x80, if byte = 0xED then 0x9F else 0xBF⟩ := by
  simp only [lead?, Bool.and_eq_true, decide_eq_true_eq, beq_iff_eq]
  grind

private theorem lead?_four {byte : Nat} (low : 0xF0 ≤ byte) (high : byte ≤ 0xF4) : lead? byte =
    some ⟨byte - 0xF0, 3, if byte = 0xF0 then 0x90 else 0x80, if byte = 0xF4 then 0x8F else 0xBF⟩ := by
  simp only [lead?, Bool.and_eq_true, decide_eq_true_eq, beq_iff_eq]
  grind

private theorem code_ofNat {code : Nat} (valid : code.isValidChar) : (Char.ofNat code).val.toNat = code := by
  rw [Char.ofNat, dif_pos valid]
  rfl

private theorem byte_eq (byte : UInt8) {code : Nat} (same : code = byte.toNat) : UInt8.ofNat code = byte := by
  rw [same, UInt8.ofNat_toNat]

private theorem decodeChar_ok {byte : UInt8} {rest after : List UInt8} {c : Char}
    (ends : decodeChar byte rest = .ok (c, after)) :
    byte :: rest = String.utf8EncodeChar c ++ after := by
  rw [decodeChar] at ends
  split at ends
  · obtain ⟨rfl, rfl⟩ : Char.ofNat byte.toNat = c ∧ rest = after := by simpa using ends
    rw [String.utf8EncodeChar, code_ofNat (.inl (by omega)), if_pos (by omega), byte_eq byte rfl, List.singleton_append]
  · split at ends
    · contradiction
    · rename_i lead found
      cases continued : continueChar lead.following 1 lead.low lead.high lead.bits rest with
      | error fault => simp [continued, Except.map] at ends
      | ok full =>
        obtain ⟨code, others⟩ := full
        obtain ⟨rfl, rfl⟩ : Char.ofNat code = c ∧ others = after := by simpa [continued, Except.map] using ends
        rcases lead?_eq_some found with ⟨rfl, low, high⟩ | ⟨rfl, low, high⟩ | ⟨rfl, low, high⟩
        · simp only [continueChar_succ, continueChar_zero] at continued
          obtain ⟨second, _, rfl, inside, rfl, rfl⟩ := continued
          rw [String.utf8EncodeChar, code_ofNat (.inl (by omega)), if_neg (by omega), if_pos (by omega),
            byte_eq byte (by omega), byte_eq second (by omega)]
          rfl
        · simp only [continueChar_succ, continueChar_zero] at continued
          obtain ⟨second, _, rfl, inside, third, _, rfl, within, rfl, rfl⟩ := continued
          have bounds : 0x80 ≤ second.toNat ∧ second.toNat ≤ 0xBF ∧ (byte.toNat = 0xE0 → 0xA0 ≤ second.toNat) ∧
            (byte.toNat = 0xED → second.toNat ≤ 0x9F) := by grind
          clear inside
          have valid :
              (((byte.toNat - 0xE0) * 0x40 + (second.toNat - 0x80)) * 0x40 + (third.toNat - 0x80)).isValidChar := by
            unfold Nat.isValidChar
            omega
          rw [String.utf8EncodeChar, code_ofNat valid, if_neg (by omega), if_neg (by omega), if_pos (by omega),
            byte_eq byte (by omega), byte_eq second (by omega), byte_eq third (by omega)]
          rfl
        · simp only [continueChar_succ, continueChar_zero] at continued
          obtain ⟨second, _, rfl, inside, third, _, rfl, within, fourth, _, rfl, beside, rfl, rfl⟩ := continued
          have bounds : 0x80 ≤ second.toNat ∧ second.toNat ≤ 0xBF ∧ (byte.toNat = 0xF0 → 0x90 ≤ second.toNat) ∧
            (byte.toNat = 0xF4 → second.toNat ≤ 0x8F) := by grind
          clear inside
          have valid : ((((byte.toNat - 0xF0) * 0x40 + (second.toNat - 0x80)) * 0x40 + (third.toNat - 0x80)) * 0x40 +
              (fourth.toNat - 0x80)).isValidChar := by
            unfold Nat.isValidChar
            omega
          rw [String.utf8EncodeChar, code_ofNat valid, if_neg (by omega), if_neg (by omega), if_neg (by omega),
            byte_eq byte (by omega), byte_eq second (by omega), byte_eq third (by omega), byte_eq fourth (by omega)]
          rfl

private theorem decodeChar_of_lead {byte : UInt8} {rest after : List UInt8} {lead : Lead} {code : Nat}
    (large : ¬ byte.toNat < 0x80)
    (found : lead? byte.toNat = some lead)
    (continued : continueChar lead.following 1 lead.low lead.high lead.bits rest = .ok (code, after)) :
    decodeChar byte rest = .ok (Char.ofNat code, after) := by
  rw [decodeChar, if_neg large, found]
  simp only [continued]
  rfl

private theorem decodeChar_encoded (c : Char) (after : List UInt8) :
    ∃ byte rest, String.utf8EncodeChar c ++ after = byte :: rest ∧ decodeChar byte rest = .ok (c, after) := by
  have valid : c.val.toNat.isValidChar := c.valid
  have same : Char.ofNat c.val.toNat = c := c.ofNat_toNat
  rw [String.utf8EncodeChar, ← same]
  generalize c.val.toNat = code at *
  rw [code_ofNat valid]
  unfold Nat.isValidChar at valid
  by_cases one : code ≤ 0x7F
  · refine ⟨_, _, by rw [if_pos one]; rfl, ?_⟩
    rw [decodeChar, UInt8.toNat_ofNat_of_lt' (by omega : code < 0x100), if_pos (by omega)]
    rfl
  by_cases two : code ≤ 0x7FF
  · refine ⟨_, UInt8.ofNat (code % 64 + 128) :: after, by rw [if_neg one, if_pos two]; rfl, ?_⟩
    have first := UInt8.toNat_ofNat_of_lt' (by omega : code / 64 % 32 + 192 < 0x100)
    have second := UInt8.toNat_ofNat_of_lt' (by omega : code % 64 + 128 < 0x100)
    apply decodeChar_of_lead (by omega) (lead?_two (by omega) (by omega))
    simp only [continueChar_succ, continueChar_zero, first]
    exact ⟨_, _, rfl, by omega, by omega, rfl⟩
  by_cases three : code ≤ 0xFFFF
  · refine ⟨_, UInt8.ofNat (code / 64 % 64 + 128) :: UInt8.ofNat (code % 64 + 128) :: after,
      by rw [if_neg one, if_neg two, if_pos three]; rfl, ?_⟩
    have first := UInt8.toNat_ofNat_of_lt' (by omega : code / 4096 % 16 + 224 < 0x100)
    have second := UInt8.toNat_ofNat_of_lt' (by omega : code / 64 % 64 + 128 < 0x100)
    have third := UInt8.toNat_ofNat_of_lt' (by omega : code % 64 + 128 < 0x100)
    apply decodeChar_of_lead (by omega) (lead?_three (by omega) (by omega))
    simp only [continueChar_succ, continueChar_zero, first]
    exact ⟨_, _, rfl, by constructor <;> split <;> omega, _, _, rfl, by omega, by omega, rfl⟩
  · refine ⟨_, UInt8.ofNat (code / 4096 % 64 + 128) :: UInt8.ofNat (code / 64 % 64 + 128) ::
      UInt8.ofNat (code % 64 + 128) :: after, by rw [if_neg one, if_neg two, if_neg three]; rfl, ?_⟩
    have first := UInt8.toNat_ofNat_of_lt' (by omega : code / 262144 % 8 + 240 < 0x100)
    have second := UInt8.toNat_ofNat_of_lt' (by omega : code / 4096 % 64 + 128 < 0x100)
    have third := UInt8.toNat_ofNat_of_lt' (by omega : code / 64 % 64 + 128 < 0x100)
    have fourth := UInt8.toNat_ofNat_of_lt' (by omega : code % 64 + 128 < 0x100)
    apply decodeChar_of_lead (by omega) (lead?_four (by omega) (by omega))
    simp only [continueChar_succ, continueChar_zero, first]
    exact ⟨_, _, rfl, by constructor <;> split <;> omega, _, _, rfl, by omega, _, _, rfl, by omega, by omega, rfl⟩

/-- Every character takes at least one byte, so the fuel lasts. -/
private theorem decodeFrom_ok {fuel position : Nat} {bytes : List UInt8} {chars : List Char}
    (enough : bytes.length ≤ fuel) :
    decodeFrom fuel position bytes = .ok chars ↔ bytes = chars.flatMap String.utf8EncodeChar := by
  induction fuel generalizing position bytes chars with
  | zero =>
    obtain rfl : bytes = [] := List.length_eq_zero_iff.mp (Nat.le_zero.mp enough)
    cases chars <;> simp [decodeFrom]
  | succ fuel ih =>
    cases bytes with
    | nil => cases chars <;> simp [decodeFrom]
    | cons byte rest =>
      rw [decodeFrom]
      constructor
      · intro ends
        split at ends
        · contradiction
        · rename_i c after found
          have encoded := decodeChar_ok found
          cases later : decodeFrom fuel (position + (rest.length + 1 - after.length)) after with
          | error fault => simp [later, Except.map] at ends
          | ok others =>
            obtain rfl : c :: others = chars := by simpa [later, Except.map] using ends
            have size := congrArg List.length encoded
            have filled := List.length_pos_iff.mpr (@String.utf8EncodeChar_ne_nil c)
            simp only [List.length_cons, List.length_append] at size enough
            rw [encoded, List.flatMap_cons, ← (ih (by omega)).mp later]
      · intro same
        cases chars with
        | nil => simp at same
        | cons c others =>
          obtain ⟨first, later, encoded, found⟩ := decodeChar_encoded c (others.flatMap String.utf8EncodeChar)
          rw [List.flatMap_cons, encoded] at same
          obtain ⟨rfl, rfl⟩ := List.cons.inj same
          have size := congrArg List.length encoded
          have filled := List.length_pos_iff.mpr (@String.utf8EncodeChar_ne_nil c)
          simp only [List.length_cons, List.length_append] at size enough
          have short : (others.flatMap String.utf8EncodeChar).length ≤ fuel := by omega
          simp only [found, (ih short).mpr rfl]
          rfl

/-- Bytes are read as a text exactly if they are what it is encoded as. -/
theorem decode_eq_ok {bytes : List UInt8} {text : String} :
    decode bytes = .ok text ↔ bytes = text.toUTF8.data.toList := by
  have encoded : text.toUTF8.data.toList = text.toList.flatMap String.utf8EncodeChar := by
    rw [String.toUTF8_eq_toByteArray, ← String.ofList_toList (s := text), String.toByteArray_ofList,
      String.toList_ofList]
    exact List.toList_data_toByteArray
  rw [encoded, ← decodeFrom_ok (Nat.le_refl _), decode]
  cases decodeFrom bytes.length 0 bytes with
  | error fault => simp [Except.map]
  | ok chars =>
    simp only [Except.map, Except.ok.injEq]
    exact ⟨fun same => by rw [← same, String.toList_ofList], fun same => by rw [same, String.ofList_toList]⟩

end TableModels.Text
