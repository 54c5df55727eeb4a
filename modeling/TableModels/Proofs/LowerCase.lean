import TableModels.Text.Case

/-! Lower case of texts, part by part. A sigma is the one character whose lower case hangs on what stands around it.
ASCII texts have theirs character by character, and what is in lower case already stays as it is. -/

namespace TableModels.Text

theorem lowerFrom_append {chars : List Char} (plain : 'Σ' ∉ chars) (before more : List Char) :
    lowerFrom before (chars ++ more) = lowerFrom before chars ++ lowerFrom (chars.reverse ++ before) more := by
  induction chars generalizing before with
  | nil => rfl
  | cons c rest ih =>
    simp only [List.mem_cons, not_or] at plain
    have sigma : (c == 'Σ') = false := beq_eq_false_iff_ne.mpr (Ne.symm plain.1)
    simp [lowerFrom, sigma, ih plain.2]

theorem of_ascii {property : Char → Prop} (each : ∀ code < 0x80, property (Char.ofNat code)) {c : Char}
    (ascii : c.toNat < 0x80) :
    property c := by
  rw [← Char.ofNat_toNat c]
  exact each c.toNat ascii

private theorem lowerChar_ascii {c : Char} (ascii : c.toNat < 0x80) : lowerChar c = c.toLower := by
  apply of_ascii _ ascii
  decide +kernel

theorem low_toLower {c : Char} (ascii : c.toNat < 0x80) : c.toLower.toNat < 0x80 ∧ isAsciiUpper c.toLower = false := by
  apply of_ascii _ ascii
  decide +kernel

private theorem toLower_low {c : Char} (low : c.toNat < 0x80 ∧ isAsciiUpper c = false) : c.toLower = c := by
  rw [← lowerChar_ascii low.1, lowerChar, if_pos low.1, low.2]
  rfl

theorem lowerFrom_ascii {chars : List Char} (ascii : ∀ c ∈ chars, c.toNat < 0x80) (before : List Char) :
    lowerFrom before chars = chars.map Char.toLower := by
  induction chars generalizing before with
  | nil => rfl
  | cons c rest ih =>
    obtain ⟨first, others⟩ := List.forall_mem_cons.mp ascii
    have apart : ∀ d : Char, 0x80 ≤ d.toNat → (c == d) = false := by
      intro d above
      rw [beq_eq_false_iff_ne]
      rintro rfl
      omega
    rw [lowerFrom, ih others, apart 'Σ' (by decide), apart 'İ' (by decide), lowerChar_ascii first]
    rfl

theorem lowerFrom_low {chars : List Char} (low : ∀ c ∈ chars, c.toNat < 0x80 ∧ isAsciiUpper c = false)
    (before : List Char) :
    lowerFrom before chars = chars := by
  rw [lowerFrom_ascii fun c member => (low c member).1, List.map_congr_left fun c member => toLower_low (low c member)]
  exact List.map_id' chars

theorem lower_low {text : String} (low : ∀ c ∈ text.toList, c.toNat < 0x80 ∧ isAsciiUpper c = false) :
    lower text = text := by
  rw [lower, lowerChars, lowerFrom_low low, String.ofList_toList]

end TableModels.Text
