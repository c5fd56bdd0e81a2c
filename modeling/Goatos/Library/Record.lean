import Goatos.Library.ByteMemory

namespace Goatos
namespace Library

/-!
# Records in memory

A record is a list of fields, each a little-endian number at an offset from the
start of the record.  One side writes all fields in the order of a declaration,
the other side reads single fields at offsets that a manual prescribes.  The
two agree field by field as long as no two fields overlap.
-/

/-- A field of a record: `width` bytes at an offset. -/
structure Field where
  offset : Nat
  width : Nat
  value : Nat
  deriving DecidableEq, Repr

namespace Field

def Apart (left right : Field) : Prop :=
  left.offset + left.width ≤ right.offset ∨ right.offset + right.width ≤ left.offset

instance (left right : Field) : Decidable (left.Apart right) :=
  inferInstanceAs (Decidable (_ ∨ _))

/-- Fields of given widths and values, one right after the other. -/
def consecutive : (offset : Nat) -> List (Nat × Nat) -> List Field
  | _, [] => []
  | offset, (width, value) :: rest => ⟨offset, width, value⟩ :: consecutive (offset + width) rest

def size (parts : List (Nat × Nat)) : Nat :=
  (parts.map Prod.fst).sum

theorem consecutive_within {offset : Nat} {parts : List (Nat × Nat)} {field : Field}
    (member : field ∈ consecutive offset parts) :
    offset ≤ field.offset ∧ field.offset + field.width ≤ offset + size parts := by
  induction parts generalizing offset with
  | nil => exact absurd member List.not_mem_nil
  | cons part rest inductionHypothesis =>
      have total : size (part :: rest) = part.1 + size rest := by
        rw [size, List.map_cons, List.sum_cons, size]
      rcases List.mem_cons.mp member with rfl | later
      · exact ⟨Nat.le_refl _, by rw [total]; exact Nat.add_le_add_left (Nat.le_add_right _ _) _⟩
      · have bounds := inductionHypothesis later
        omega

theorem consecutive_apart (offset : Nat) (parts : List (Nat × Nat)) :
    (consecutive offset parts).Pairwise Apart := by
  induction parts generalizing offset with
  | nil => exact List.Pairwise.nil
  | cons part rest inductionHypothesis =>
      refine List.Pairwise.cons ?_ (inductionHypothesis _)
      intro field member
      exact Or.inl (consecutive_within member).1

end Field

namespace ByteMemory

def storeFields (memory : ByteMemory) (base : Nat) (fields : List Field) : ByteMemory :=
  fields.foldl (fun memory field => memory.store (base + field.offset) field.width field.value)
    memory

theorem storeFields_outside (memory : ByteMemory) {base target : Nat} {fields : List Field}
    (outside : forall field, field ∈ fields ->
      target < base + field.offset ∨ base + field.offset + field.width ≤ target) :
    memory.storeFields base fields target = memory target := by
  induction fields generalizing memory with
  | nil => rfl
  | cons field rest inductionHypothesis =>
      have later := inductionHypothesis (memory.store (base + field.offset) field.width field.value)
        (fun other member => outside other (List.mem_cons_of_mem _ member))
      exact later.trans (store_outside memory (outside field List.mem_cons_self))

/-- A word that no field touches reads as before. -/
theorem load_storeFields_of_disjoint (memory : ByteMemory) {base target size : Nat}
    {fields : List Field}
    (apart : forall field, field ∈ fields ->
      target + size ≤ base + field.offset ∨ base + field.offset + field.width ≤ target) :
    (memory.storeFields base fields).load target size = memory.load target size := by
  apply load_congr
  intro address member
  have bounds := mem_extent.mp member
  apply storeFields_outside
  intro field inFields
  have away := apart field inFields
  omega

/-- A field reads back as its value, if it fits its width and shares no byte with
the others. -/
theorem load_storeFields (memory : ByteMemory) (base : Nat) {fields : List Field}
    (apart : fields.Pairwise Field.Apart) {field : Field} (member : field ∈ fields)
    (fits : field.value < 256 ^ field.width) :
    (memory.storeFields base fields).load (base + field.offset) field.width = field.value := by
  induction fields generalizing memory with
  | nil => exact absurd member List.not_mem_nil
  | cons head rest inductionHypothesis =>
      rcases List.pairwise_cons.mp apart with ⟨headApart, restApart⟩
      rcases List.mem_cons.mp member with rfl | later
      · have untouched : forall other, other ∈ rest ->
            base + field.offset + field.width ≤ base + other.offset ∨
              base + other.offset + other.width ≤ base + field.offset := by
          intro other inRest
          rcases headApart other inRest with before | after
          · exact Or.inl (by omega)
          · exact Or.inr (by omega)
        calc (memory.storeFields base (field :: rest)).load (base + field.offset) field.width
            = (memory.store (base + field.offset) field.width field.value).load
                (base + field.offset) field.width := load_storeFields_of_disjoint _ untouched
          _ = field.value := load_store_of_lt memory fits
      · exact inductionHypothesis _ restApart later

end ByteMemory

end Library
end Goatos
