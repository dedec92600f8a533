import RedVector.Command.Ft

/-!
# Schemas with types of vectors

A schema is taken apart two arguments at a time, and a type of a vector by its
first parenthesis of each kind.
-/

namespace RedVector.Command

open Util

variable [VectorPlatform]

/-- A type with a parenthesis that is closed before the first one is opened. -/
def ClosesFirst (fieldType : Bytes) : Prop :=
  ∃ before behind, fieldType = before ++ 41 :: behind ∧ 40 ∉ before ∧
    40 ∈ behind

omit [VectorPlatform] in
theorem vectorDimension_eq_none {fieldType : Bytes} (dimension : Nat) :
    vectorDimension fieldType dimension = none ↔ ClosesFirst fieldType := by
  unfold vectorDimension
  constructor
  · intro panics
    split at panics
    · rename_i opened closed isOpened isClosed
      split at panics
      · cases panics
      · rename_i wrong
        obtain ⟨inside, opens, first⟩ :=
          List.findIdx?_eq_some_iff_getElem.mp isOpened
        obtain ⟨within, closes, -⟩ :=
          List.findIdx?_eq_some_iff_getElem.mp isClosed
        have isOpen : fieldType[opened] = 40 := of_decide_eq_true opens
        have isClose : fieldType[closed] = 41 := of_decide_eq_true closes
        have apart : closed ≠ opened := by
          rintro rfl
          cases isOpen.symm.trans isClose
        have earlier : closed < opened := by omega
        refine ⟨fieldType.take closed, fieldType.drop (closed + 1), ?_, ?_,
          ?_⟩
        · rw [← isClose, ← List.drop_eq_getElem_cons within,
            List.take_append_drop]
        · intro member
          obtain ⟨position, below, found⟩ := List.getElem_of_mem member
          rw [List.length_take] at below
          rw [List.getElem_take] at found
          have other := first position (by omega)
          rw [found] at other
          exact absurd other (by decide)
        · have same : opened = closed + 1 + (opened - (closed + 1)) := by
            omega
          have member : (fieldType.drop (closed + 1))[opened - (closed + 1)]? =
              some 40 := by
            rw [List.getElem?_drop, ← same, List.getElem?_eq_getElem inside,
              isOpen]
          exact List.mem_of_getElem? member
    · cases panics
  · rintro ⟨before, behind, rfl, notBefore, later⟩
    have closed : ∃ position, position ≤ before.length ∧
        (before ++ 41 :: behind).findIdx? (· = 41) = some position := by
      rw [List.findIdx?_append]
      cases found : before.findIdx? (· = 41) with
      | none =>
          refine ⟨before.length, Nat.le_refl _, ?_⟩
          simp [List.findIdx?_cons]
      | some position =>
          obtain ⟨inside, -, -⟩ := List.findIdx?_eq_some_iff_getElem.mp found
          exact ⟨position, inside.le, rfl⟩
    have opened : ∃ position, before.length < position ∧
        (before ++ 41 :: behind).findIdx? (· = 40) = some position := by
      have nowhere : before.findIdx? (· = 40) = none := by
        rw [List.findIdx?_eq_none_iff]
        rintro byte member
        exact decide_eq_false fun same => notBefore (same ▸ member)
      have somewhere : (behind.findIdx? (· = 40)).isSome = true := by
        rw [List.findIdx?_isSome]
        exact List.any_eq_true.mpr ⟨40, later, rfl⟩
      obtain ⟨position, found⟩ := Option.isSome_iff_exists.mp somewhere
      refine ⟨position + 1 + before.length, by omega, ?_⟩
      rw [List.findIdx?_append, nowhere, List.findIdx?_cons, found]
      rfl
    obtain ⟨closed, early, isClosed⟩ := closed
    obtain ⟨opened, late, isOpened⟩ := opened
    rw [isOpened, isClosed]
    exact if_neg (by omega)

/-- The parts of a list that are taken two at a time. -/
def pairs : List Bytes → List (Bytes × Bytes)
  | first :: second :: rest => (first, second) :: pairs rest
  | _ => []

/-- What stands behind the first word `SCHEMA` that is not the last argument. -/
def behindSchema : List Bytes → List Bytes
  | keyword :: rest =>
      if isUtf8 keyword &&
          decide (VectorPlatform.strToUppercase keyword = text "SCHEMA") &&
          !rest.isEmpty then rest
      else behindSchema rest
  | [] => []

/-- The types of these fields that begin with `VECTOR`; the fields end before
one that is not text. -/
def vectorTypes (fields : List (Bytes × Bytes)) : List Bytes :=
  ((fields.takeWhile fun field => isUtf8 field.1 && isUtf8 field.2).map
    Prod.snd).filter fun fieldType =>
      (text "VECTOR").isPrefixOf (VectorPlatform.strToUppercase fieldType)

/-- The types of vectors in the arguments of `FT.CREATE`. -/
def schemaTypes (arguments : List Bytes) : List Bytes :=
  vectorTypes (pairs (behindSchema arguments))

/-- The dimension that the last of these types names. -/
def lastDimension (types : List Bytes) (dimension : Nat) : Option Nat :=
  types.foldlM (fun dimension fieldType => vectorDimension fieldType dimension)
    dimension

omit [VectorPlatform] in
theorem lastDimension_returns (types : List Bytes) (dimension : Nat) :
    (lastDimension types dimension).isSome = true ↔
      ∀ fieldType ∈ types, ¬ ClosesFirst fieldType := by
  induction types generalizing dimension with
  | nil => simp [lastDimension]
  | cons fieldType types ih =>
      have split : lastDimension (fieldType :: types) dimension =
          (vectorDimension fieldType dimension).bind (lastDimension types) :=
        List.foldlM_cons
      rw [split, List.forall_mem_cons]
      cases found : vectorDimension fieldType dimension with
      | none =>
          have closes := (vectorDimension_eq_none dimension).mp found
          constructor
          · exact nofun
          · exact fun opens => absurd closes opens.1
      | some named =>
          have opens : ¬ ClosesFirst fieldType := by
            intro closes
            cases found.symm.trans
              ((vectorDimension_eq_none dimension).mpr closes)
          exact (ih named).trans (and_iff_right opens).symm

/-- The fields are read for their types of vectors. -/
theorem schemaFields_eq (fields : List Bytes) (hasVector : Bool)
    (dimension : Nat) :
    schemaFields fields hasVector dimension =
      (lastDimension (vectorTypes (pairs fields)) dimension).map fun last =>
        (hasVector || !(vectorTypes (pairs fields)).isEmpty, last) := by
  fun_induction schemaFields fields hasVector dimension with
  | case1 fieldName fieldType rest hasVector dimension readable vector ih =>
      have types : vectorTypes (pairs (fieldName :: fieldType :: rest)) =
          fieldType :: vectorTypes (pairs rest) := by
        simp [vectorTypes, pairs, readable, vector]
      rw [types]
      have split : lastDimension (fieldType :: vectorTypes (pairs rest))
          dimension = (vectorDimension fieldType dimension).bind
            (lastDimension (vectorTypes (pairs rest))) :=
        List.foldlM_cons
      rw [split]
      cases found : vectorDimension fieldType dimension with
      | none => rfl
      | some named =>
          refine (ih named).trans ?_
          simp
  | case2 fieldName fieldType rest hasVector dimension readable other ih =>
      have types : vectorTypes (pairs (fieldName :: fieldType :: rest)) =
          vectorTypes (pairs rest) := by
        simp [vectorTypes, pairs, readable, other]
      rw [types]
      exact ih
  | case3 fieldName fieldType rest hasVector dimension unreadable =>
      have types : vectorTypes (pairs (fieldName :: fieldType :: rest)) =
          [] := by
        simp [vectorTypes, pairs, unreadable]
      rw [types]
      simp [lastDimension]
  | case4 fields hasVector dimension short =>
      have none : pairs fields = [] := by
        unfold pairs
        split
        · rename_i first second rest
          exact absurd rfl (short first second rest)
        · rfl
      rw [none]
      simp [vectorTypes, lastDimension]

theorem schema_eq (arguments : List Bytes) :
    schema arguments =
      (lastDimension (schemaTypes arguments) 128).map fun last =>
        (!(schemaTypes arguments).isEmpty, last) := by
  unfold schemaTypes
  induction arguments with
  | nil => rfl
  | cons keyword rest ih =>
      unfold schema behindSchema
      split
      · exact schemaFields_eq rest false 128
      · exact ih

end RedVector.Command
