import RedVector.Value.Set

/-!
# Sets as sets of byte strings

What the operations of a set do to its members.  The numbers of a set stand
for the byte strings they are written as; `vec_to_usize` also reads a number
behind a `+`, which is not how it is written, and the operations are those of
a set of byte strings wherever no such number is taken for another one.
-/

namespace RedVector

namespace Util

theorem isUtf8_of_ascii {bytes : Bytes}
    (ascii : ∀ byte ∈ bytes, byte < 128) : isUtf8 bytes = true := by
  fun_induction isUtf8 bytes <;> simp_all

/-- A number with a plus sign in front of it. -/
def signed (element : Bytes) : Bool :=
  element.head? == some 43 && (vecToUsize element).isOk

theorem isDigit_ascii {byte : UInt8} (digit : isDigit byte = true) :
    byte < 128 ∧ byte ≠ 43 := by
  unfold isDigit at digit
  simp only [Bool.and_eq_true, decide_eq_true_eq, UInt8.le_iff_toNat_le]
    at digit
  obtain ⟨least, most⟩ := digit
  have least : 48 ≤ byte.toNat := least
  have most : byte.toNat ≤ 57 := most
  constructor
  · apply UInt8.lt_iff_toNat_lt.mpr
    have bound : (128 : UInt8).toNat = 128 := rfl
    omega
  · rintro rfl
    have plus : (43 : UInt8).toNat = 43 := rfl
    omega

/-- A number is read back from how it is written. -/
theorem vecToUsize_natToString {number : Nat} (small : number ≤ usizeMax) :
    vecToUsize (natToString number) = .ok number := by
  have digits := List.all_eq_true.mp (natToString_isDigit number)
  have nonempty := natToString_ne_nil number
  have utf8 : isUtf8 (natToString number) = true :=
    isUtf8_of_ascii fun byte member => (isDigit_ascii (digits byte member)).1
  have leading : ¬((natToString number).isEmpty ||
      (decide (1 < (natToString number).length) &&
        (natToString number).head? == some 48)) = true := by
    intro refused
    rcases Bool.or_eq_true_iff.mp refused with empty | zero
    · exact nonempty (List.isEmpty_iff.mp empty)
    · rw [Bool.and_eq_true] at zero
      by_cases positive : 0 < number
      · exact natToString_head positive (by simpa using zero.2)
      · have none : number = 0 := by omega
        subst none
        exact absurd zero.1 (by decide)
  have parsed : parseUsize (natToString number) = some number := by
    unfold parseUsize
    have whole : parseDigits (natToString number) = some number := by
      unfold parseDigits
      rw [if_pos (by simp [nonempty, natToString_isDigit]),
        natToString_value]
    split
    · rename_i rest written
      have plus : (43 : UInt8) ∈ natToString number := by
        rw [written]
        exact List.mem_cons_self
      exact absurd rfl (isDigit_ascii (digits 43 plus)).2
    · rw [whole]
      simp [small]
  unfold vecToUsize
  rw [if_neg leading, if_neg (not_not_intro utf8), parsed]

/-- A number that is read is how it is written, or has a sign. -/
theorem vecToUsize_ok
    {element : Bytes} {number : Nat}
    (read : vecToUsize element = .ok number) :
    number ≤ usizeMax ∧
      (signed element = true ∨ natToString number = element) := by
  have isOk : (vecToUsize element).isOk = true := by
    rw [read]
    rfl
  unfold vecToUsize at read
  split at read
  · cases read
  rename_i leading
  split at read
  · cases read
  split at read
  · rename_i value parsed
    cases read
    unfold parseUsize at parsed
    obtain ⟨parsed, small⟩ := Option.filter_eq_some_iff.mp parsed
    refine ⟨by simpa using small, ?_⟩
    split at parsed
    · left
      unfold signed
      rw [isOk]
      rfl
    · right
      unfold parseDigits at parsed
      split at parsed
      · rename_i digits
        cases parsed
        simp only [Bool.and_eq_true, decide_eq_true_eq] at digits
        apply natToString_digitsValue digits.1 digits.2
        intro longer zero
        apply leading
        simp [longer, zero]
      · cases parsed
  · cases read

/-- A number with a sign is not how it is written. -/
theorem signed_ne_natToString {element : Bytes}
    (sign : signed element = true) (number : Nat) :
    natToString number ≠ element := by
  rintro rfl
  have plus : (natToString number).head? = some 43 := by
    unfold signed at sign
    simp only [Bool.and_eq_true, beq_iff_eq] at sign
    exact sign.1
  have member : (43 : UInt8) ∈ natToString number :=
    List.mem_of_mem_head? plus
  have digit := List.all_eq_true.mp (natToString_isDigit number) 43 member
  exact absurd rfl (isDigit_ascii digit).2

end Util

namespace ValueSet

open Util

/-- The numbers of a set fit into a machine word. -/
def Bounded : ValueSet → Prop
  | .integer numbers => ∀ number ∈ numbers, number ≤ usizeMax
  | .data _ => True

theorem bounded_new : Bounded .new := by
  intro number member
  cases member

theorem mem_members_integer {numbers : Finset Nat} {element : Bytes} :
    element ∈ (ValueSet.integer numbers).members ↔
      ∃ number ∈ numbers, natToString number = element :=
  Finset.mem_image

theorem natToString_mem {numbers : Finset Nat} {number : Nat} :
    natToString number ∈ (ValueSet.integer numbers).members ↔
      number ∈ numbers := by
  rw [mem_members_integer]
  constructor
  · intro written
    obtain ⟨other, member, same⟩ := written
    cases natToString_injective same
    exact member
  · exact fun member => ⟨number, member, rfl⟩

/-- What a set of numbers holds is read as one of them. -/
theorem reads_of_mem
    {numbers : Finset Nat} {element : Bytes}
    (bounded : Bounded (.integer numbers))
    (member : element ∈ (ValueSet.integer numbers).members) :
    ∃ number ∈ numbers, vecToUsize element = .ok number ∧
      natToString number = element := by
  obtain ⟨number, known, rfl⟩ := mem_members_integer.mp member
  exact ⟨number, known, vecToUsize_natToString (bounded number known), rfl⟩

/-- Whether adding an element stores a number for a signed one. -/
def converts : ValueSet → Nat → Bytes → Bool
  | .integer numbers, maxIntSize, element =>
      decide (numbers.card < maxIntSize) && signed element
  | .data _, _, _ => false

/-- Whether a signed element is taken for a number of the set. -/
def confuses : ValueSet → Bytes → Bool
  | .integer numbers, element =>
      match vecToUsize element with
      | .ok number => signed element && decide (number ∈ numbers)
      | .error _ => false
  | .data _, _ => false

/-! ## Single elements -/

/-- A number of a set is the element that is looked for. -/
theorem mem_iff_number
    {numbers : Finset Nat} {element : Bytes} {number : Nat}
    (clear : (ValueSet.integer numbers).confuses element = false)
    (read : vecToUsize element = .ok number) :
    number ∈ numbers ↔ element ∈ (ValueSet.integer numbers).members := by
  simp only [confuses, read] at clear
  rcases (vecToUsize_ok read).2 with sign | written
  · have absent : number ∉ numbers := by simpa [sign] using clear
    refine iff_of_false absent ?_
    intro member
    obtain ⟨other, -, same⟩ := mem_members_integer.mp member
    exact signed_ne_natToString sign other same
  · rw [← written, natToString_mem]

/-- What is not a number is not in a set of numbers. -/
theorem not_mem_of_error
    {numbers : Finset Nat} {element : Bytes} {error : OperationError}
    (bounded : Bounded (.integer numbers))
    (unread : vecToUsize element = .error error) :
    element ∉ (ValueSet.integer numbers).members := by
  intro member
  obtain ⟨number, -, read, -⟩ := reads_of_mem bounded member
  cases unread.symm.trans read

theorem sismember_members
    {set : ValueSet} {element : Bytes} (bounded : set.Bounded)
    (clear : set.confuses element = false) :
    set.sismember element = decide (element ∈ set.members) := by
  cases set with
  | data elements => rfl
  | integer numbers =>
      unfold sismember
      dsimp only
      split
      · rename_i number read
        exact decide_eq_decide.mpr (mem_iff_number clear read)
      · rename_i error unread
        exact (decide_eq_false (not_mem_of_error bounded unread)).symm

/-- Adding an element adds it to the members. -/
theorem sadd_members
    {set : ValueSet} {element : Bytes} {maxIntSize : Nat}
    (bounded : set.Bounded)
    (clear : set.converts maxIntSize element = false) :
    (set.sadd element maxIntSize).1 = decide (element ∉ set.members) ∧
      (set.sadd element maxIntSize).2.members = insert element set.members ∧
      (set.sadd element maxIntSize).2.Bounded := by
  cases set with
  | data elements => exact ⟨rfl, rfl, trivial⟩
  | integer numbers =>
      unfold sadd
      dsimp only
      split
      · rename_i small
        split
        · rename_i number read
          obtain ⟨fits, how⟩ := vecToUsize_ok read
          have written : natToString number = element := by
            rcases how with sign | written
            · simp [converts, small, sign] at clear
            · exact written
          subst written
          refine ⟨?_, ?_, ?_⟩
          · exact decide_eq_decide.mpr (not_congr natToString_mem.symm)
          · exact Finset.image_insert natToString number numbers
          · intro other member
            rcases Finset.mem_insert.mp member with rfl | member
            · exact fits
            · exact bounded other member
        · exact ⟨rfl, rfl, trivial⟩
      · exact ⟨rfl, rfl, trivial⟩

/-- Removing an element removes it from the members. -/
theorem srem_members
    {set : ValueSet} {element : Bytes} (bounded : set.Bounded)
    (clear : set.confuses element = false) :
    (set.srem element).1 = decide (element ∈ set.members) ∧
      (set.srem element).2.members = set.members.erase element ∧
      (set.srem element).2.Bounded := by
  cases set with
  | data elements => exact ⟨rfl, rfl, trivial⟩
  | integer numbers =>
      unfold srem
      dsimp only
      split
      · rename_i number read
        have known := mem_iff_number clear read
        refine ⟨decide_eq_decide.mpr known, ?_, ?_⟩
        · by_cases member : number ∈ numbers
          · obtain ⟨other, -, again, written⟩ :=
              reads_of_mem bounded (known.mp member)
            cases read.symm.trans again
            subst written
            exact Finset.image_erase natToString_injective numbers number
          · rw [Finset.erase_eq_of_notMem member,
              Finset.erase_eq_of_notMem (mt known.mpr member)]
        · intro other member
          exact bounded other (Finset.mem_of_mem_erase member)
      · rename_i error unread
        have absent := not_mem_of_error bounded unread
        refine ⟨(decide_eq_false absent).symm, ?_, bounded⟩
        exact (Finset.erase_eq_of_notMem absent).symm

/-! ## Several elements -/

/-- Whether a signed element is stored as a number when it is added after
others. -/
def convertsAfter (set : ValueSet) (maxIntSize : Nat) (front : List Bytes)
    (element : Bytes) : Prop :=
  signed element = true ∧ ∃ numbers, set = .integer numbers ∧
    (∀ other ∈ front, (vecToUsize other).isOk = true) ∧
    (numbers ∪ numbersOf front.toFinset).card < maxIntSize

/-- Whether a signed element is taken for a number of the set that others
leave when they are removed. -/
def confusesAfter (set : ValueSet) (front : List Bytes) (element : Bytes) :
    Prop :=
  signed element = true ∧ ∃ numbers, set = .integer numbers ∧
    ∃ number ∈ numbers, vecToUsize element = .ok number ∧
      ∀ other ∈ front, vecToUsize other ≠ .ok number

theorem mem_numbersOf {elements : Finset Bytes} {number : Nat} :
    number ∈ numbersOf elements ↔
      ∃ element ∈ elements, vecToUsize element = .ok number := by
  unfold numbersOf
  rw [Finset.mem_biUnion]
  apply exists_congr
  intro element
  apply and_congr_right
  intro _
  split
  · rename_i other read
    rw [Finset.mem_singleton, read]
    exact ⟨fun same => same ▸ rfl, fun same => (Except.ok.inj same).symm⟩
  · rename_i error unread
    rw [unread]
    simp

theorem converts_iff {set : ValueSet} {maxIntSize : Nat} {element : Bytes} :
    set.converts maxIntSize element = true ↔
      set.convertsAfter maxIntSize [] element := by
  have nothing : numbersOf ([] : List Bytes).toFinset = ∅ := rfl
  unfold convertsAfter
  rw [nothing]
  cases set with
  | data elements => simp [converts]
  | integer numbers => simp [converts, and_comm]

theorem confuses_iff {set : ValueSet} {element : Bytes} :
    set.confuses element = true ↔ set.confusesAfter [] element := by
  unfold confusesAfter
  cases set with
  | data elements => simp [confuses]
  | integer numbers =>
      unfold confuses
      dsimp only
      split
      · rename_i number read
        simp [read]
      · rename_i error unread
        simp [unread]

/-- An element without a sign is not taken for another one. -/
theorem confuses_unsigned
    {element : Bytes} (unsigned : signed element = false)
    (set : ValueSet) : set.confuses element = false := by
  apply Bool.eq_false_iff.mpr
  intro confused
  have sign := (confuses_iff.mp confused).1
  cases unsigned.symm.trans sign

/-- An element that is added comes before those that are added later. -/
theorem convertsAfter_sadd
    {set : ValueSet} {maxIntSize : Nat} {first element : Bytes}
    {front : List Bytes}
    (later : (set.sadd first maxIntSize).2.convertsAfter maxIntSize front
      element) :
    set.convertsAfter maxIntSize (first :: front) element := by
  obtain ⟨sign, numbers, isInteger, read, small⟩ := later
  refine ⟨sign, ?_⟩
  cases set with
  | data elements => cases isInteger
  | integer original =>
      unfold sadd at isInteger
      dsimp only at isInteger
      split at isInteger
      · split at isInteger
        · rename_i number isNumber
          cases isInteger
          refine ⟨original, rfl, ?_, ?_⟩
          · intro other member
            rcases List.mem_cons.mp member with rfl | member
            · rw [isNumber]
              rfl
            · exact read other member
          · have same : original ∪ numbersOf (first :: front).toFinset =
                insert number original ∪ numbersOf front.toFinset := by
              ext other
              simp only [Finset.mem_union, Finset.mem_insert, mem_numbersOf,
                List.toFinset_cons, exists_eq_or_imp, isNumber,
                Except.ok.injEq]
              tauto
            rw [same]
            exact small
        · cases isInteger
      · cases isInteger

theorem confusesAfter_srem
    {set : ValueSet} {first element : Bytes} {front : List Bytes}
    (later : (set.srem first).2.confusesAfter front element) :
    set.confusesAfter (first :: front) element := by
  obtain ⟨sign, numbers, isInteger, number, member, read, other⟩ := later
  refine ⟨sign, ?_⟩
  cases set with
  | data elements => cases isInteger
  | integer original =>
      unfold srem at isInteger
      dsimp only at isInteger
      split at isInteger
      · rename_i removed isNumber
        cases isInteger
        obtain ⟨different, known⟩ := Finset.mem_erase.mp member
        refine ⟨original, rfl, number, known, read, ?_⟩
        intro each among
        rcases List.mem_cons.mp among with rfl | among
        · intro again
          cases isNumber.symm.trans again
          exact different rfl
        · exact other each among
      · rename_i error unread
        cases isInteger
        refine ⟨numbers, rfl, number, member, read, ?_⟩
        intro each among
        rcases List.mem_cons.mp among with rfl | among
        · intro again
          cases unread.symm.trans again
        · exact other each among

theorem removeAll_members (set : ValueSet) (picked : List Bytes) :
    (set.removeAll picked).members = set.members \ picked.toFinset := by
  cases set with
  | data elements => rfl
  | integer numbers =>
      ext element
      rw [Finset.mem_sdiff, List.mem_toFinset]
      constructor
      · intro member
        obtain ⟨number, kept, rfl⟩ := mem_members_integer.mp member
        obtain ⟨known, unpicked⟩ := Finset.mem_filter.mp kept
        exact ⟨natToString_mem.mpr known, unpicked⟩
      · intro kept
        obtain ⟨number, known, rfl⟩ := mem_members_integer.mp kept.1
        exact natToString_mem.mpr
          (Finset.mem_filter.mpr ⟨known, kept.2⟩)

theorem removeAll_bounded
    {set : ValueSet} (bounded : set.Bounded) (picked : List Bytes) :
    (set.removeAll picked).Bounded := by
  cases set with
  | data elements => trivial
  | integer numbers =>
      exact fun number member =>
        bounded number (Finset.mem_of_mem_filter number member)

/-! ## Set algebra -/

/-- The numbers among the members of a set of numbers are all of them. -/
theorem numbersOf_members
    {numbers : Finset Nat} (bounded : Bounded (.integer numbers)) :
    numbersOf (ValueSet.integer numbers).members = numbers := by
  ext number
  rw [mem_numbersOf]
  constructor
  · intro found
    obtain ⟨element, member, read⟩ := found
    obtain ⟨other, known, again, -⟩ := reads_of_mem bounded member
    cases read.symm.trans again
    exact known
  · intro known
    exact ⟨natToString number, natToString_mem.mpr known,
      vecToUsize_natToString (bounded number known)⟩

/-- Whether elements become a set of numbers with a signed one among them. -/
def rewrites (elements : Finset Bytes) : Prop :=
  elements.card = (numbersOf elements).card ∧
    ∃ element ∈ elements, signed element = true

/-- A set that is created from elements holds them. -/
theorem createWithHashset_members
    {elements : Finset Bytes} (clear : ¬rewrites elements) :
    (createWithHashset elements).members = elements ∧
      (createWithHashset elements).Bounded := by
  unfold createWithHashset
  dsimp only
  split
  · rename_i converted
    have written : ∀ number ∈ numbersOf elements,
        number ≤ usizeMax ∧ natToString number ∈ elements := by
      intro number found
      obtain ⟨element, member, read⟩ := mem_numbersOf.mp found
      obtain ⟨fits, how⟩ := vecToUsize_ok read
      refine ⟨fits, ?_⟩
      rcases how with sign | same
      · exact absurd ⟨converted, element, member, sign⟩ clear
      · rw [same]
        exact member
    refine ⟨?_, fun number found => (written number found).1⟩
    apply Finset.eq_of_subset_of_card_le
    · intro element member
      obtain ⟨number, found, rfl⟩ := mem_members_integer.mp member
      exact (written number found).2
    · rw [card_members]
      exact converted.le
  · exact ⟨rfl, trivial⟩

/-- A signed member of a set of numbers is written without the sign. -/
theorem createWithHashset_iff {elements : Finset Bytes} :
    (createWithHashset elements).members = elements ↔ ¬rewrites elements := by
  constructor
  · rintro same ⟨converted, element, member, sign⟩
    have isInteger : createWithHashset elements =
        .integer (numbersOf elements) := by
      unfold createWithHashset
      exact if_pos converted
    rw [isInteger] at same
    rw [← same] at member
    obtain ⟨number, -, rfl⟩ := mem_members_integer.mp member
    exact signed_ne_natToString sign number rfl
  · exact fun clear => (createWithHashset_members clear).1

/-- Whether a signed member of another set takes a number of the first away
that none of the others holds. -/
def diffConfuses (set : ValueSet) (others : List ValueSet) : Prop :=
  ∃ numbers, set = .integer numbers ∧ ∃ number ∈ numbers,
    (∃ other ∈ others, ∃ element ∈ other.members,
      signed element = true ∧ vecToUsize element = .ok number) ∧
    ∀ other ∈ others, natToString number ∉ other.members

/-- Whether a number of the first set stays that another does not hold,
because of a signed member. -/
def interConfuses (set : ValueSet) (others : List ValueSet) : Prop :=
  ∃ numbers, set = .integer numbers ∧ ∃ number ∈ numbers,
    (∀ other ∈ others, ∃ element ∈ other.members,
      vecToUsize element = .ok number) ∧
    ∃ other ∈ others, natToString number ∉ other.members

theorem mem_foldl_sdiff
    {α : Type} [DecidableEq α] {β : Type} (content : β → Finset α)
    (others : List β) (original : Finset α) (element : α) :
    element ∈ others.foldl (fun elements other => elements \ content other)
        original ↔
      element ∈ original ∧ ∀ other ∈ others, element ∉ content other := by
  induction others generalizing original with
  | nil => simp
  | cons other others ih =>
      rw [List.foldl_cons, ih, Finset.mem_sdiff, List.forall_mem_cons,
        and_assoc]

theorem mem_foldl_inter
    {α : Type} [DecidableEq α] {β : Type} (content : β → Finset α)
    (others : List β) (original : Finset α) (element : α) :
    element ∈ others.foldl (fun elements other => elements ∩ content other)
        original ↔
      element ∈ original ∧ ∀ other ∈ others, element ∈ content other := by
  induction others generalizing original with
  | nil => simp
  | cons other others ih =>
      rw [List.foldl_cons, ih, Finset.mem_inter, List.forall_mem_cons,
        and_assoc]

theorem mem_foldl_union
    {α : Type} [DecidableEq α] {β : Type} (content : β → Finset α)
    (others : List β) (original : Finset α) (element : α) :
    element ∈ others.foldl (fun elements other => elements ∪ content other)
        original ↔
      element ∈ original ∨ ∃ other ∈ others, element ∈ content other := by
  induction others generalizing original with
  | nil => simp
  | cons other others ih =>
      rw [List.foldl_cons, ih, Finset.mem_union, List.exists_mem_cons_iff,
        or_assoc]

/-- The numbers that a set stands for in the algebra of a set of numbers. -/
def numeric : ValueSet → Finset Nat
  | .integer numbers => numbers
  | .data elements => numbersOf elements

theorem numeric_members {set : ValueSet} (bounded : set.Bounded) :
    set.numeric = numbersOf set.members := by
  cases set with
  | data elements => rfl
  | integer numbers => exact (numbersOf_members bounded).symm

/-- The numbers of the first set that no member of another set is read as. -/
theorem mem_sdiff_integer
    {original : Finset Nat} {others : List ValueSet}
    (othersBounded : ∀ other ∈ others, other.Bounded) {element : Bytes} :
    element ∈ (integer original).sdiff others ↔
      ∃ number ∈ original, natToString number = element ∧
        ∀ other ∈ others, ∀ member ∈ other.members,
          vecToUsize member ≠ .ok number := by
  have folded : (integer original).sdiff others =
      (others.foldl (fun elements other => elements \ other.numeric)
        original).image natToString := by
    unfold sdiff numeric
    apply congrArg (Finset.image natToString)
    apply congrArg (fun step => others.foldl step original)
    funext elements other
    cases other with
    | data _ => rfl
    | integer _ => rfl
  rw [folded, Finset.mem_image]
  refine exists_congr fun number => ?_
  rw [mem_foldl_sdiff numeric others original number, and_assoc,
    and_comm (b := natToString number = element)]
  refine and_congr_right fun known => and_congr_right fun written =>
    forall_congr' fun other => forall_congr' fun among => ?_
  rw [numeric_members (othersBounded other among), mem_numbersOf]
  push Not
  rfl

/-- The numbers of the first set that some member of every other set is read
as. -/
theorem mem_sinter_integer
    {original : Finset Nat} {others : List ValueSet}
    (othersBounded : ∀ other ∈ others, other.Bounded) {element : Bytes} :
    element ∈ (integer original).sinter others ↔
      ∃ number ∈ original, natToString number = element ∧
        ∀ other ∈ others, ∃ member ∈ other.members,
          vecToUsize member = .ok number := by
  have folded : (integer original).sinter others =
      (others.foldl (fun elements other => elements ∩ other.numeric)
        original).image natToString := by
    unfold sinter numeric
    apply congrArg (Finset.image natToString)
    apply congrArg (fun step => others.foldl step original)
    funext elements other
    cases other with
    | data _ => rfl
    | integer _ => rfl
  rw [folded, Finset.mem_image]
  refine exists_congr fun number => ?_
  rw [mem_foldl_inter numeric others original number, and_assoc,
    and_comm (b := natToString number = element)]
  refine and_congr_right fun known => and_congr_right fun written =>
    forall_congr' fun other => forall_congr' fun among => ?_
  rw [numeric_members (othersBounded other among), mem_numbersOf]

theorem sdiff_members
    {set : ValueSet} {others : List ValueSet} (bounded : set.Bounded)
    (othersBounded : ∀ other ∈ others, other.Bounded)
    (clear : ¬diffConfuses set others) (element : Bytes) :
    element ∈ set.sdiff others ↔
      element ∈ set.members ∧ ∀ other ∈ others, element ∉ other.members := by
  cases set with
  | data original => exact mem_foldl_sdiff members others original element
  | integer original =>
      rw [mem_sdiff_integer othersBounded]
      constructor
      · rintro ⟨number, known, rfl, outside⟩
        refine ⟨natToString_mem.mpr known, ?_⟩
        intro other among inside
        exact outside other among _ inside
          (vecToUsize_natToString (bounded number known))
      · intro kept
        obtain ⟨number, known, rfl⟩ := mem_members_integer.mp kept.1
        refine ⟨number, known, rfl, ?_⟩
        intro other among element member read
        rcases (vecToUsize_ok read).2 with sign | written
        · exact clear ⟨original, rfl, number, known,
            ⟨other, among, element, member, sign, read⟩, kept.2⟩
        · rw [← written] at member
          exact kept.2 other among member

theorem sinter_members
    {set : ValueSet} {others : List ValueSet} (bounded : set.Bounded)
    (othersBounded : ∀ other ∈ others, other.Bounded)
    (clear : ¬interConfuses set others) (element : Bytes) :
    element ∈ set.sinter others ↔
      element ∈ set.members ∧ ∀ other ∈ others, element ∈ other.members := by
  cases set with
  | data original => exact mem_foldl_inter members others original element
  | integer original =>
      rw [mem_sinter_integer othersBounded]
      constructor
      · rintro ⟨number, known, rfl, inside⟩
        refine ⟨natToString_mem.mpr known, ?_⟩
        intro other among
        by_contra outside
        exact clear ⟨original, rfl, number, known, inside, other, among,
          outside⟩
      · intro kept
        obtain ⟨number, known, rfl⟩ := mem_members_integer.mp kept.1
        refine ⟨number, known, rfl, ?_⟩
        intro other among
        exact ⟨_, kept.2 other among,
          vecToUsize_natToString (bounded number known)⟩

/-- A difference that loses a number to a signed member is too small. -/
theorem card_sdiff_lt
    {set : ValueSet} {others : List ValueSet} (bounded : set.Bounded)
    (othersBounded : ∀ other ∈ others, other.Bounded)
    (confuses : diffConfuses set others) {truth : Finset Bytes}
    (isTruth : ∀ element, element ∈ truth ↔
      element ∈ set.members ∧ ∀ other ∈ others, element ∉ other.members) :
    (set.sdiff others).card < truth.card := by
  obtain ⟨original, rfl, number, known, ⟨other, among, element, member, -,
    read⟩, outside⟩ := confuses
  apply Finset.card_lt_card
  rw [Finset.ssubset_iff_of_subset]
  · refine ⟨natToString number,
      (isTruth _).mpr ⟨natToString_mem.mpr known, outside⟩, ?_⟩
    rw [mem_sdiff_integer othersBounded]
    rintro ⟨same, -, written, apart⟩
    rw [natToString_injective written] at apart
    exact apart other among element member read
  · intro name inside
    obtain ⟨number, known, rfl, apart⟩ :=
      (mem_sdiff_integer othersBounded).mp inside
    refine (isTruth _).mpr ⟨natToString_mem.mpr known, ?_⟩
    intro other among held
    exact apart other among _ held
      (vecToUsize_natToString (bounded number known))

/-- An intersection that takes a signed member for a number is too large. -/
theorem card_sinter_lt
    {set : ValueSet} {others : List ValueSet} (bounded : set.Bounded)
    (othersBounded : ∀ other ∈ others, other.Bounded)
    (confuses : interConfuses set others) {truth : Finset Bytes}
    (isTruth : ∀ element, element ∈ truth ↔
      element ∈ set.members ∧ ∀ other ∈ others, element ∈ other.members) :
    truth.card < (set.sinter others).card := by
  obtain ⟨original, rfl, number, known, everywhere, other, among,
    outside⟩ := confuses
  apply Finset.card_lt_card
  rw [Finset.ssubset_iff_of_subset]
  · refine ⟨natToString number, ?_, fun inside =>
      outside (((isTruth _).mp inside).2 other among)⟩
    rw [mem_sinter_integer othersBounded]
    exact ⟨number, known, rfl, everywhere⟩
  · intro name inside
    obtain ⟨held, all⟩ := (isTruth name).mp inside
    obtain ⟨number, known, rfl⟩ := mem_members_integer.mp held
    rw [mem_sinter_integer othersBounded]
    refine ⟨number, known, rfl, ?_⟩
    intro other among
    exact ⟨_, all other among,
      vecToUsize_natToString (bounded number known)⟩

theorem sunion_members
    (set : ValueSet) (others : List ValueSet) (element : Bytes) :
    element ∈ set.sunion others ↔
      element ∈ set.members ∨ ∃ other ∈ others, element ∈ other.members :=
  mem_foldl_union members others set.members element

end ValueSet

end RedVector
