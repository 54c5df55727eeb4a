import TableModels.Proofs.Rendering
import TableModels.Proofs.Stored

/-! Rendering depends on no more than it should. Of the enumerated types it reads the names, of a table what is stored
of it, and of its foreign keys and of the other tables which of the relations lead to a known table. -/

namespace TableModels.Model

open Schema Typing

variable {style : Style} {enums others : Enums} {known less : List String} {table other : Table}

private theorem declared_of_stored (same : other.stored = table.stored) : other.declared = table.declared := by
  have back := Table.ofStored_stored other
  rw [same, Table.ofStored_stored] at back
  exact (Except.ok.inj back).symm

private theorem Style.link?_congr {name : String} {key : ForeignKey}
    (targets : style.target name key ∈ less ↔ style.target name key ∈ known) :
    style.link? name less key = style.link? name known key := by
  have contains : less.contains (style.target name key) = known.contains (style.target name key) := by
    rw [Bool.eq_iff_iff, List.contains_iff_mem, List.contains_iff_mem, targets]
  simp only [Style.link?, Style.embedding, contains]

private theorem Style.links_congr
    (targets : ∀ key ∈ table.foreignKeys, style.target table.name key ∈ less ↔ style.target table.name key ∈ known) :
    style.links less table = style.links known table := by
  rw [Style.links, Style.links]
  split
  · apply List.filterMap_congr
    intro key member
    exact Style.link?_congr (targets key member)
  · rfl

/-- Two renderings in one style, with enumerated types of the same names, end alike and make the same text. Without
embedded relations it is enough that the tables are stored alike. With them it is enough that the table is the same, and
that the same of its effective targets are known. -/
theorem rendering_noninterference (style : Style)
    (names : ∀ name, name ∈ Keyed.names others ↔ name ∈ Keyed.names enums) :
    (style.embedRelations = false → ∀ (table other : Table) (known less : List String), other.stored = table.stored →
      render style others less other = render style enums known table) ∧
    ∀ (table : Table) (known less : List String),
      (∀ key ∈ table.foreignKeys, style.target table.name key ∈ less ↔ style.target table.name key ∈ known) →
      render style others less table = render style enums known table := by
  have types : Enums.fieldType others = Enums.fieldType enums := fieldType_congr names
  constructor
  · intro plain table other known less same
    apply render_alike types (declared_of_stored same)
    simp [Style.links, plain]
  · intro table known less targets
    exact render_alike types rfl (Style.links_congr targets)

namespace Letter

def sent (author : Option ForeignKey) : Table where
  name := "letters"
  columns := [{ name := "author_id", sourceType := "initials", foreignKey := author }]
  distinct := List.nodup_singleton _

def author : ForeignKey := ⟨"author_id", "people", "id", true⟩

/-- Letters are by members, whatever the foreign key says. -/
def settings (embedRelations : Bool) : Style where
  embedRelations := embedRelations
  overrides := [("letters", [("author", { table := some "members" })])]

end Letter

/-- The values of a type do not count. The table that a key refers to does not count either when an override names
another one, and that one does. -/
theorem letter_unmoved :
    (∀ name, name ∈ Keyed.names [("initials", ["a. b."])] ↔ name ∈ Keyed.names [("initials", ["c. d.", "e. f."])]) ∧
    render (Letter.settings false) [("initials", ["a. b."])] [] (Letter.sent none) =
      render (Letter.settings false) [("initials", ["c. d.", "e. f."])] ["letters", "members"]
        (Letter.sent (some Letter.author)) ∧
    render (Letter.settings true) [("initials", ["a. b."])] ["members", "people"] (Letter.sent (some Letter.author)) =
      render (Letter.settings true) [("initials", ["c. d.", "e. f."])] ["letters", "members"]
        (Letter.sent (some Letter.author)) ∧
    render (Letter.settings true) [("initials", ["a. b."])] ["people"] (Letter.sent (some Letter.author)) ≠
      render (Letter.settings true) [("initials", ["a. b."])] ["members", "people"]
        (Letter.sent (some Letter.author)) := by
  have names : ∀ name, name ∈ Keyed.names [("initials", ["a. b."])] ↔
      name ∈ Keyed.names [("initials", ["c. d.", "e. f."])] :=
    fun name => Iff.rfl
  refine ⟨names, ?_, ?_, by decide +kernel⟩
  · exact (rendering_noninterference (Letter.settings false) names).1 rfl _ _ _ _ rfl
  · apply (rendering_noninterference (Letter.settings true) names).2
    decide +kernel

end TableModels.Model
