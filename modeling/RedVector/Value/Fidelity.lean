import RedVector.Database.Database
import RedVector.Value.Rdb

/-!
# Which values DUMP keeps

The payload of DUMP is read back to the value exactly if every length fits in
four bytes, no string in it is disguised as an integer, no finite score is
negative, and no set of numbers is empty or holds a number of more than four
bytes.
-/

namespace RedVector

open Util Codec Rdb

section

/-! ## Fixed points -/

/-- A set whose image is itself consists of fixed points, if the image of an
image is the image. -/
theorem image_eq_self_iff
    {α : Type} [DecidableEq α] {f : α → α} (idempotent : ∀ a, f (f a) = f a)
    (set : Finset α) : set.image f = set ↔ ∀ a ∈ set, f a = a := by
  constructor
  · intro same a member
    rw [← same] at member
    obtain ⟨b, -, rfl⟩ := Finset.mem_image.mp member
    exact idempotent b
  · intro fixed
    have identical : set.image f = set.image id := Finset.image_congr fixed
    rw [identical, Finset.image_id]

theorem mem_mapOf
    {β : Type} {entries : List (Bytes × β)} {key : Bytes} :
    key ∈ mapOf entries ↔ key ∈ entries.map Prod.fst := by
  induction entries with
  | nil => exact iff_of_false (Finmap.notMem_empty) (by simp)
  | cons entry rest ih =>
      obtain ⟨name, value⟩ := entry
      simp [mapOf, Finmap.mem_insert, ih]

theorem lookup_mapOf
    {β : Type} {entries : List (Bytes × β)} {key : Bytes} {value : β}
    (nodup : (entries.map Prod.fst).Nodup) (member : (key, value) ∈ entries) :
    (mapOf entries).lookup key = some value := by
  induction entries with
  | nil => cases member
  | cons entry rest ih =>
      obtain ⟨name, other⟩ := entry
      rw [List.map_cons, List.nodup_cons] at nodup
      unfold mapOf
      rcases List.mem_cons.mp member with same | later
      · cases same
        exact Finmap.lookup_insert _
      · have different : key ≠ name := by
          rintro rfl
          exact nodup.1 (List.mem_map.mpr ⟨_, later, rfl⟩)
        rw [Finmap.lookup_insert_of_ne _ different]
        exact ih nodup.2 later

variable {order : Finset Bytes → List Bytes}

theorem mapOf_entriesOf
    {β : Type} (lists : Lists order) (map : HashMap Bytes β) :
    mapOf (entriesOf order map) = map := by
  apply Finmap.ext_lookup
  intro key
  cases held : map.lookup key with
  | some value =>
      exact lookup_mapOf (entriesOf_nodup (lists.nodup _))
        ((mem_entriesOf lists).mpr held)
  | none =>
      rw [Finmap.lookup_eq_none, mem_mapOf]
      intro listed
      obtain ⟨⟨name, value⟩, member, rfl⟩ := List.mem_map.mp listed
      cases held.symm.trans ((mem_entriesOf lists).mp member)

/-- The same for the entries of a map. -/
theorem mapOf_eq_self_iff
    {β : Type} (lists : Lists order) (map : HashMap Bytes β)
    {f : Bytes → Bytes} {g : β → β} (idempotent : ∀ key, f (f key) = f key) :
    mapOf ((entriesOf order map).map fun entry => (f entry.1, g entry.2)) =
        map ↔
      ∀ key value, map.lookup key = some value →
        f key = key ∧ g value = value := by
  constructor
  · intro same
    have names : ∀ key value, map.lookup key = some value → f key = key := by
      intro key value held
      have present : key ∈ map := Finmap.mem_of_lookup_eq_some held
      rw [← same, mem_mapOf, List.map_map] at present
      obtain ⟨entry, -, rfl⟩ := List.mem_map.mp present
      exact idempotent entry.1
    intro key value held
    refine ⟨names key value held, ?_⟩
    have listed := (mem_entriesOf lists).mpr held
    have unchanged : (((entriesOf order map).map fun entry =>
        (f entry.1, g entry.2)).map Prod.fst) =
          (entriesOf order map).map Prod.fst := by
      rw [List.map_map]
      apply List.map_congr_left
      rintro ⟨name, other⟩ member
      exact names name other ((mem_entriesOf lists).mp member)
    have nodup := entriesOf_nodup (lists.nodup map.keys)
    rw [← unchanged] at nodup
    have found := lookup_mapOf nodup (List.mem_map_of_mem listed)
    rw [same, names key value held, held] at found
    exact (Option.some.inj found).symm
  · intro fixed
    have unchanged : ((entriesOf order map).map fun entry =>
        (f entry.1, g entry.2)) = (entriesOf order map).map id := by
      apply List.map_congr_left
      rintro ⟨name, value⟩ member
      obtain ⟨sameName, sameValue⟩ :=
        fixed name value ((mem_entriesOf lists).mp member)
      rw [sameName, sameValue]
      rfl
    rw [unchanged, List.map_id, mapOf_entriesOf lists]

/-! ## The condition -/

/-- A string that fits and is not disguised. -/
def Verbatim (data : Bytes) : Prop :=
  data.length ≤ u32Max ∧ ¬Disguised data

theorem verbatim_iff (data : Bytes) :
    Verbatim data ↔ (encodeSlice data true).isSome ∧ returned data = data := by
  rw [Verbatim, encodeSlice_isSome, returned_iff]

variable [Platform]

/-- An infinite score, or one that has no sign; its display fits. -/
def ExactScore (score : F64) : Prop :=
  Platform.f64IsInfinite score = true ∨
    (Platform.f64Abs score = score ∧
      (Platform.f64ToString score).length ≤ u32Max)

theorem exactScore_iff
    {score : F64} (isNumber : Platform.f64IsNan score = false) :
    ExactScore score ↔ (ValueSortedSet.encodeScore score).isSome ∧
      returnedScore score = score := by
  unfold ExactScore ValueSortedSet.encodeScore returnedScore
  rw [isNumber, if_neg (by decide)]
  split
  · rename_i infinite
    refine iff_of_true (.inl infinite) ⟨?_, rfl⟩
    split
    · rfl
    · rfl
  · rename_i finite
    rw [encodeSlice_isSome]
    constructor
    · rintro (infinite | ⟨same, fits⟩)
      · exact absurd infinite finite
      · rw [same]
        exact ⟨fits, rfl⟩
    · rintro ⟨fits, same⟩
      rw [same] at fits
      exact .inr ⟨same, fits⟩

/-- The values that DUMP keeps. -/
def Dumpable : Value → Prop
  | .nil => False
  | .string (.integer number) =>
      (encodeI64 number).isSome ∨ (intToString number).length ≤ u32Max
  | .string (.data bytes) => Verbatim bytes
  | .list list => list.length ≤ u32Max ∧ ∀ item ∈ list, Verbatim item
  | .set (.integer numbers) =>
      ∃ encoding, (ValueSet.largest numbers).bind ValueSet.intsetEncoding =
        some encoding ∧ 8 + encoding * numbers.card ≤ u32Max
  | .set (.data elements) =>
      elements.card ≤ u32Max ∧ ∀ element ∈ elements, Verbatim element
  | .sortedSet zset =>
      zset.hmap.keys.card ≤ u32Max ∧
        ∀ name score, zset.hmap.lookup name = some score →
          Verbatim name ∧ ExactScore score
  | .hash hash =>
      hash.fields.keys.card ≤ u32Max ∧
        ∀ field value, hash.fields.lookup field = some value →
          Verbatim field ∧ Verbatim value
  | .bloom _ => False

/-- No score is NaN. -/
def Numeric : Value → Prop
  | .sortedSet zset => ∀ name score, zset.hmap.lookup name = some score →
      Platform.f64IsNan score = false
  | _ => True

/-- DUMP does not panic and its payload is read back to what the value holds. -/
def Faithful (env : Env) (value : Value) : Prop :=
  ∃ payload content, value.dump env.order env.idOrder = some (.ok payload) ∧
    value.content = some content ∧ decode payload = some content

/-- The same for what is written of a value. -/
def Kept (dumped : Option Bytes) (content : Content) : Prop :=
  ∃ data, dumped = some data ∧ decode (checksummed data) = some content

theorem Env.lists (env : Env) : Lists env.order :=
  ⟨env.order_nodup, env.mem_order⟩

theorem Env.listsIds (env : Env) : Lists env.idOrder :=
  ⟨env.idOrder_nodup, env.mem_idOrder⟩

/-! ## One type after the other -/

theorem kept_iff
    {dumped : Option Bytes} {content back : Content}
    (reads : ∀ data, dumped = some data →
      decode (checksummed data) = some back) :
    Kept dumped content ↔ dumped.isSome ∧ back = content := by
  constructor
  · rintro ⟨data, rfl, decoded⟩
    exact ⟨rfl, Option.some.inj ((reads data rfl).symm.trans decoded)⟩
  · rintro ⟨some, rfl⟩
    obtain ⟨data, rfl⟩ := Option.isSome_iff_exists.mp some
    exact ⟨data, rfl, reads data rfl⟩

theorem string_kept (value : ValueString) :
    Kept value.dump (.string value.toVec) ↔ Dumpable (.string value) := by
  rw [kept_iff fun _ => string_reads]
  cases value with
  | integer number =>
      have written : (ValueString.integer number).dump.isSome ↔
          Dumpable (.string (.integer number)) := by
        cases short : encodeI64 number with
        | some encoded =>
            have dumped : (ValueString.integer number).dump =
                some (framed typeString encoded) := by
              simp [ValueString.dump, short]
            rw [dumped, Dumpable, short]
            simp
        | none =>
            have dumped : (ValueString.integer number).dump =
                (encodeSlice (intToString number) false).map
                  (framed typeString) := by
              simp [ValueString.dump, short, ValueString.toVec,
                Option.map_eq_bind]
            rw [dumped, Dumpable, short, Option.isSome_map,
              encodeSlice_isSome]
            simp
      rw [written]
      exact and_iff_left rfl
  | data bytes =>
      have written : (ValueString.data bytes).dump.isSome ↔
          (encodeSlice bytes true).isSome := by
        have dumped : (ValueString.data bytes).dump =
            (encodeSlice bytes true).bind fun v =>
              some (framed typeString v) := rfl
        rw [dumped]
        cases encodeSlice bytes true with
        | none => rfl
        | some encoded => rfl
      rw [written, Content.string.injEq]
      exact (verbatim_iff bytes).symm

omit [Platform] in
/-- A length and elements can be written if both fit. -/
theorem elements_isSome
    {α : Type} {encode : α → Option Bytes} {elements : List α} {len : Nat}
    (frame : Bytes → Bytes) :
    ((encodeLen len).bind fun len =>
      (encodeAll encode elements).bind fun items =>
        some (frame (len ++ items))).isSome ↔
      len ≤ u32Max ∧ ∀ element ∈ elements, (encode element).isSome := by
  rw [← encodeLen_isSome, ← encodeAll_isSome]
  cases encodeLen len with
  | none => simp
  | some front =>
      cases encodeAll encode elements with
      | none => simp
      | some items => simp

theorem list_kept (list : ValueList) :
    Kept list.dump (.list list) ↔ Dumpable (.list list) := by
  rw [kept_iff fun _ => list_reads, Content.list.injEq]
  have written : list.dump.isSome ↔ list.length ≤ u32Max ∧
      ∀ item ∈ list, (encodeSlice item true).isSome :=
    elements_isSome (framed typeList)
  have same : list.map returned = list ↔
      ∀ item ∈ list, returned item = item := by
    have identical : list.map returned = list.map id ↔
        ∀ item ∈ list, returned item = id item := List.map_inj_left
    rwa [List.map_id] at identical
  rw [written, same, and_assoc, ← forall₂_and]
  simp only [Dumpable, verbatim_iff]

theorem set_kept (env : Env) (set : ValueSet) :
    Kept (set.dump env.order env.idOrder) (.set set.members) ↔
      Dumpable (.set set) := by
  cases set with
  | integer numbers =>
      rw [kept_iff fun _ => intset_reads env.listsIds]
      rw [and_iff_left rfl]
      have dumped : (ValueSet.integer numbers).dump env.order env.idOrder =
          ((ValueSet.largest numbers).bind ValueSet.intsetEncoding).bind
            fun encoding =>
              (encodeLen (lowBytes 4 encoding ++ lowBytes 4 numbers.card ++
                (env.idOrder numbers).flatMap fun item : Nat =>
                  lowBytes encoding item).length).bind fun len =>
                some (framed typeSetIntset (len ++ (lowBytes 4 encoding ++
                  lowBytes 4 numbers.card ++
                  (env.idOrder numbers).flatMap fun item : Nat =>
                    lowBytes encoding item))) := rfl
      rw [dumped]
      unfold Dumpable
      simp only [Option.isSome_bind, Option.any_eq_true, Option.isSome_some,
        and_true, intset_length env.listsIds, ← Option.isSome_iff_exists,
        encodeLen_isSome]
  | data elements =>
      rw [kept_iff fun _ => set_reads env.lists, Content.set.injEq]
      have written : ((ValueSet.data elements).dump env.order
          env.idOrder).isSome ↔ elements.card ≤ u32Max ∧
            ∀ element ∈ env.order elements,
              (encodeSlice element true).isSome :=
        elements_isSome (framed typeSet)
      have same : elements.image returned = elements ↔
          ∀ element ∈ elements, returned element = element :=
        image_eq_self_iff returned_returned elements
      have members : (ValueSet.data elements).members = elements := rfl
      rw [written, members, same, and_assoc]
      simp only [env.mem_order, ← forall₂_and, Dumpable, verbatim_iff]

omit [Platform] in
/-- An entry can be written if its parts can. -/
theorem entry_isSome (first second : Option Bytes) :
    (first.bind fun front => second.bind fun back =>
      some (front ++ back)).isSome ↔ first.isSome ∧ second.isSome := by
  cases first with
  | none => simp
  | some front =>
      cases second with
      | none => simp
      | some back => simp

theorem zset_kept
    (env : Env) {zset : ValueSortedSet} (numeric : Numeric (.sortedSet zset)) :
    Kept (zset.dump env.order) (.sortedSet zset.hmap) ↔
      Dumpable (.sortedSet zset) := by
  rw [kept_iff fun _ => zset_reads env.lists numeric,
    Content.sortedSet.injEq,
    mapOf_eq_self_iff env.lists zset.hmap returned_returned]
  have written : (zset.dump env.order).isSome ↔
      zset.hmap.keys.card ≤ u32Max ∧
        ∀ entry ∈ entriesOf env.order zset.hmap,
          ((encodeSlice entry.1 true).bind fun front =>
            (ValueSortedSet.encodeScore entry.2).bind fun back =>
              some (front ++ back)).isSome :=
    elements_isSome (framed typeZset)
  rw [written, and_assoc]
  unfold Dumpable
  refine and_congr_right fun _ => ?_
  constructor
  · rintro ⟨fits, same⟩ name score held
    have entry := fits _ ((mem_entriesOf env.lists).mpr held)
    rw [entry_isSome] at entry
    obtain ⟨sameName, sameScore⟩ := same name score held
    rw [verbatim_iff, exactScore_iff (numeric name score held)]
    exact ⟨⟨entry.1, sameName⟩, entry.2, sameScore⟩
  · intro exact
    constructor
    · rintro ⟨name, score⟩ member
      have held := (mem_entriesOf env.lists).mp member
      obtain ⟨isName, isScore⟩ := exact name score held
      rw [verbatim_iff] at isName
      rw [exactScore_iff (numeric name score held)] at isScore
      exact (entry_isSome _ _).mpr ⟨isName.1, isScore.1⟩
    · intro name score held
      obtain ⟨isName, isScore⟩ := exact name score held
      rw [verbatim_iff] at isName
      rw [exactScore_iff (numeric name score held)] at isScore
      exact ⟨isName.2, isScore.2⟩

theorem hash_kept (env : Env) (hash : ValueHash) :
    Kept (hash.dump env.order) (.hash hash.fields) ↔
      Dumpable (.hash hash) := by
  rw [kept_iff fun _ => hash_reads env.lists, Content.hash.injEq,
    mapOf_eq_self_iff env.lists hash.fields returned_returned]
  have written : (hash.dump env.order).isSome ↔
      hash.fields.keys.card ≤ u32Max ∧
        ∀ entry ∈ entriesOf env.order hash.fields,
          ((encodeSlice entry.1 true).bind fun front =>
            (encodeSlice entry.2 true).bind fun back =>
              some (front ++ back)).isSome := by
    cases hash with
    | hashMap map => exact elements_isSome (framed typeHash)
    | zipList bytes =>
        have none : entriesOf env.order (ValueHash.zipList bytes).fields =
            [] := by
          rw [← List.length_eq_zero_iff, entriesOf_length env.lists]
          rfl
        rw [none]
        exact iff_of_true rfl ⟨Nat.zero_le _, by simp⟩
  rw [written, and_assoc]
  unfold Dumpable
  refine and_congr_right fun _ => ?_
  constructor
  · rintro ⟨fits, same⟩ field value held
    have entry := fits _ ((mem_entriesOf env.lists).mpr held)
    rw [entry_isSome] at entry
    obtain ⟨sameField, sameValue⟩ := same field value held
    rw [verbatim_iff, verbatim_iff]
    exact ⟨⟨entry.1, sameField⟩, entry.2, sameValue⟩
  · intro exact
    constructor
    · rintro ⟨field, value⟩ member
      obtain ⟨isField, isValue⟩ :=
        exact field value ((mem_entriesOf env.lists).mp member)
      rw [verbatim_iff] at isField isValue
      exact (entry_isSome _ _).mpr ⟨isField.1, isValue.1⟩
    · intro field value held
      obtain ⟨isField, isValue⟩ := exact field value held
      rw [verbatim_iff] at isField isValue
      exact ⟨isField.2, isValue.2⟩

/-- What DUMP writes of a value with a content, and the content. -/
theorem faithful_iff_kept
    {env : Env} {value : Value} {dumped : Option Bytes} {content : Content}
    (writes : value.dump env.order env.idOrder =
      dumped.map fun data => .ok (checksummed data))
    (holds : value.content = some content) :
    Faithful env value ↔ Kept dumped content := by
  unfold Faithful Kept
  rw [writes, holds]
  constructor
  · rintro ⟨payload, other, written, same, decoded⟩
    cases same
    obtain ⟨data, isData, payloads⟩ := Option.map_eq_some_iff.mp written
    cases payloads
    exact ⟨data, isData, decoded⟩
  · rintro ⟨data, rfl, decoded⟩
    exact ⟨checksummed data, content, rfl, rfl, decoded⟩

/-- DUMP keeps a value exactly if it meets the condition. -/
theorem dump_faithful_iff
    (env : Env) (value : Value) (numeric : Numeric value) :
    Faithful env value ↔ Dumpable value := by
  cases value with
  | nil =>
      refine iff_of_false ?_ id
      rintro ⟨payload, content, -, empty, -⟩
      cases empty
  | string value =>
      rw [faithful_iff_kept rfl rfl]
      exact string_kept value
  | list list =>
      rw [faithful_iff_kept rfl rfl]
      exact list_kept list
  | set set =>
      rw [faithful_iff_kept rfl rfl]
      exact set_kept env set
  | sortedSet zset =>
      rw [faithful_iff_kept rfl rfl]
      exact zset_kept env numeric
  | hash hash =>
      rw [faithful_iff_kept rfl rfl]
      exact hash_kept env hash
  | bloom bloom =>
      refine iff_of_false ?_ id
      rintro ⟨payload, content, failed, -⟩
      cases failed

end

section

attribute [local instance] Platform.integral

/-- A text that spells seven in another way, and a negative score. -/
theorem dump_not_faithful :
    ¬(∀ (env : Env) (bytes : Bytes),
      Faithful env (.string (.data bytes))) ∧
    ¬∀ (env : Env) (zset : ValueSortedSet),
      Numeric (.sortedSet zset) → Faithful env (.sortedSet zset) := by
  constructor
  · intro faithful
    have kept := (string_kept _).mp ((faithful_iff_kept rfl rfl).mp
      (faithful (.still 0) (text "007")))
    exact kept.2 ⟨by decide, by decide, 7, rfl, by decide, by decide,
      by decide⟩
  · intro faithful
    have kept := (zset_kept (.still 0) (fun _ _ _ => rfl)).mp
      ((faithful_iff_kept rfl rfl).mp (faithful (.still 0)
        ⟨[.new (-1 : Int) (text "m")],
          (∅ : HashMap Bytes F64).insert (text "m") (-1 : Int)⟩
        fun _ _ _ => rfl))
    obtain ⟨-, exact⟩ := kept.2 (text "m") (-1 : Int) rfl
    rcases exact with infinite | ⟨same, -⟩
    · have finite : Platform.f64IsInfinite (-1 : Int) = false := by
        decide +kernel
      rw [finite] at infinite
      cases infinite
    · have same : (1 : Int) = -1 := same
      omega

/-- A text that is no number. -/
theorem dump_faithful_text :
    Faithful (.still 0) (.string (.data (text "hello world"))) := by
  refine (dump_faithful_iff (.still 0)
    (.string (.data (text "hello world"))) trivial).mpr ⟨by decide, ?_⟩
  rintro ⟨-, -, number, parsed, -⟩
  cases parsed

end

end RedVector
