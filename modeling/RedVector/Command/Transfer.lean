import RedVector.Command.Dispatch
import RedVector.Command.Specs

/-!
# Moving a key

RENAME, RENAMENX and MOVE remove a key and create another one with its value.
`Transferred` says what that should leave behind and `Relocates` what it does.
-/

namespace RedVector

open Util Effect Database

section

variable [Platform]

namespace Database

/-- The database without a key that is live, as removing it leaves it. -/
def without (db : Database) (slot : Slot) : Database :=
  let erased := db.setData slot.1 ((db.data slot.1).erase slot.2)
  let freed :=
    match db.value slot with
    | some value =>
        let size := estimateValueSize value slot.2.length
        if size ≤ erased.usedMemory then
          { erased with usedMemory := erased.usedMemory - size }
        else erased
    | none => erased
  let persistent := freed.setExpirations slot.1
    ((freed.dataExpirationMs slot.1).erase slot.2)
  persistent.setLru slot.1 ((persistent.keyLru slot.1).erase slot.2)

theorem remove_live
    {env : Env} {db : Database} {index : Nat} {key : Bytes}
    (alive : db.lapsed env (index, key) = false) :
    db.remove env index key =
      some (db.value (index, key), db.without (index, key)) := by
  have alive : db.isExpired env index key = false := alive
  unfold remove without
  simp only [alive]
  rfl

theorem removeMsexpiration_absent
    {db : Database} {index : Nat} {key : Bytes}
    (absent : db.expiration (index, key) = none) :
    (db.removeMsexpiration index key).2 = db := by
  have erased : (db.dataExpirationMs index).erase key =
      db.dataExpirationMs index := by
    apply Finmap.ext_lookup
    intro other
    by_cases same : other = key
    · subst same
      rw [Finmap.lookup_erase]
      exact absent.symm
    · exact Finmap.lookup_erase_ne same
  unfold removeMsexpiration setExpirations
  rw [erased, Function.update_eq_self]

end Database

namespace Command

/-- The destination holds what the source held, the source is gone, and
nothing else has changed. -/
structure Transferred (before after : Database) (source destination : Slot) :
    Prop where
  value : after.value destination = before.value source
  expiration : after.expiration destination = before.expiration source
  gone : after.value source = none ∧ after.expiration source = none
  others : ∀ slot, slot ≠ source → slot ≠ destination →
    after.value slot = before.value slot ∧
      after.expiration slot = before.expiration slot

/-- The source has a value that stays and the expiration that the destination
keeps, and creating the destination evicts nothing. -/
structure Carries (env : Env) (db : Database) (source destination : Slot) :
    Prop where
  stays : db.vanishing source = false
  expiration : db.keptExpiration env destination = db.expiration source
  spare : (db.without source).creationEvicts env destination.1
    destination.2 = false

/-- What moving a value leaves behind.  An empty value is removed as soon as
its update is announced. -/
structure Relocates (env : Env) (before after : Database)
    (source destination : Slot) : Prop where
  value : after.value destination =
    before.surviving source (before.value source)
  expiration : after.expiration destination =
    before.surviving source (before.keptExpiration env destination)
  gone : after.value source = none ∧ after.expiration source = none
  spare : (before.without source).creationEvicts env destination.1
      destination.2 = false →
    ∀ slot, slot ≠ source → slot ≠ destination →
      after.value slot = before.value slot ∧
        after.expiration slot = before.expiration slot
  short : (before.without source).creationEvicts env destination.1
      destination.2 = true →
    ∃ slot, slot ≠ source ∧ slot ≠ destination ∧
      before.value slot ≠ none ∧ after.value slot = none

theorem Relocates.transferred_iff
    {env : Env} {before after : Database} {source destination : Slot}
    (relocates : Relocates env before after source destination)
    (live : before.visible env source ≠ none) :
    Transferred before after source destination ↔
      Carries env before source destination := by
  have stored : before.value source ≠ none := by
    intro absent
    apply live
    unfold visible
    rw [absent, ite_self]
  constructor
  · intro transferred
    have stays : before.vanishing source = false := by
      cases vanishing : before.vanishing source with
      | false => rfl
      | true =>
          have nothing := relocates.value
          rw [transferred.value, surviving, if_pos vanishing] at nothing
          exact absurd nothing stored
    constructor
    · exact stays
    · have kept := relocates.expiration
      rw [transferred.expiration, surviving, stays] at kept
      exact kept.symm
    · cases evicts : (before.without source).creationEvicts env
          destination.1 destination.2 with
      | false => rfl
      | true =>
          rcases relocates.short evicts with
            ⟨slot, notSource, notDestination, present, absent⟩
          have same := (transferred.others slot notSource notDestination).1
          exact absurd (same.symm.trans absent) present
  · intro carries
    have value := relocates.value
    have expiration := relocates.expiration
    rw [surviving, carries.stays] at value expiration
    constructor
    · exact value
    · exact expiration.trans carries.expiration
    · exact relocates.gone
    · exact relocates.spare carries.spare

/-! ## The handlers -/

/-- The part that the three handlers share: the value that was removed from
the source goes to the destination. -/
def relocate (source destination : Slot) (value : Value) : Writer Unit := do
  let expiration ← Db.removeMsexpiration source.1 source.2
  let _ ← Db.getOrCreate destination.1 destination.2
  Db.put destination.1 destination.2 value
  match expiration with
  | some exp => Db.setMsexpiration destination.1 destination.2 exp
  | none => pure ()
  Db.keyUpdated destination.1 destination.2

theorem renameTo_eq (dbindex : Nat) (key newkey : Bytes) (value : Value) :
    renameTo dbindex key newkey value =
      relocate (dbindex, key) (dbindex, newkey) value :=
  rfl

/-- MOVE makes its reply in both cases of the expiration. -/
theorem relocate_bind
    (source destination : Slot) (value : Value)
    (rest : Unit → Writer Response) :
    relocate source destination value >>= rest = (do
      let expiration ← Db.removeMsexpiration source.1 source.2
      let _ ← Db.getOrCreate destination.1 destination.2
      Db.put destination.1 destination.2 value
      match expiration with
      | some exp => do
          Db.setMsexpiration destination.1 destination.2 exp
          Db.keyUpdated destination.1 destination.2
          rest ()
      | none => do
          Db.keyUpdated destination.1 destination.2
          rest ()) := by
  unfold relocate
  simp only [bind_assoc]
  congr
  funext expiration
  cases expiration with
  | none => rfl
  | some exp => rfl

/-- The expiration of the source is gone before it is read, so none is ever
set. -/
theorem relocate_relocates
    {env : Env} {db : Database} {source destination : Slot} {value : Value}
    (distinct : destination ≠ source)
    (live : db.visible env source = some value) :
    Ensures env (relocate source destination value)
      (fun result after =>
        result = .ok () ∧ Relocates env db after source destination)
      (db.without source) := by
  have alive : db.lapsed env source = false := by
    unfold visible at live
    cases lapsed : db.lapsed env source with
    | false => rfl
    | true =>
        rw [if_pos lapsed] at live
        cases live
  have stored : db.value source = some value := by
    unfold visible at live
    rw [alive] at live
    exact live
  have removes := (remove_spec (remove_live alive)).2.1
  have removes : Sets db (db.without source) source none none := removes
  have kept : (db.without source).keptExpiration env destination =
      db.keptExpiration env destination := by
    have same := removes.expiration destination
    rw [if_neg distinct] at same
    unfold keptExpiration
    rw [lapsed_congr removes.frame.loading same, same]
  unfold relocate
  refine ensures_removeMsexpiration ?_
  rw [removeMsexpiration_absent removes.expiration_self,
    removes.expiration_self]
  refine ensures_getOrCreate ?_
  intro old created creation
  refine ensures_put ?_
  intro inside
  show Ensures env (Db.keyUpdated destination.1 destination.2) _ _
  rw [← bind_pure (Db.keyUpdated destination.1 destination.2)]
  refine ensures_keyUpdated ?_
  intro after updated
  refine Program.ensures_pure ?_
  obtain ⟨-, creates⟩ := getOrCreate_creates creation
  have puts := put_sets created destination.1 destination.2 value
  obtain ⟨updates, -⟩ := keyUpdated_spec updated
  have settles := puts.trans updates
  have vanishing : (created.put destination.1 destination.2 value).vanishing
      destination = db.vanishing source := by
    unfold Database.vanishing
    rw [stored]
    exact congrArg (Option.any Value.isEmpty) puts.value_self
  constructor
  · rfl
  have apart : ∀ slot, slot ≠ source → slot ≠ destination →
      (db.without source).value slot = db.value slot ∧
        (db.without source).expiration slot = db.expiration slot ∧
        after.value slot = created.value slot ∧
        after.expiration slot = created.expiration slot := by
    intro slot notSource notDestination
    rw [removes.value, removes.expiration, settles.value,
      settles.expiration, if_neg notSource, if_neg notSource]
    exact ⟨rfl, rfl, if_neg notDestination, if_neg notDestination⟩
  constructor
  · rw [settles.value_self, surviving, vanishing, puts.value_self, stored]
    rfl
  · rw [settles.expiration_self, surviving, vanishing,
      puts.expiration_self, creates.expiration, kept]
    rfl
  · rw [settles.value, settles.expiration, if_neg distinct.symm,
      if_neg distinct.symm]
    rcases creates.others source distinct.symm with ⟨value, expiration⟩ |
      gone
    · rw [value, expiration]
      exact ⟨removes.value_self, removes.expiration_self⟩
    · exact gone
  · intro spare slot notSource notDestination
    have sets := getOrCreate_sets spare creation
    obtain ⟨value, expiration, laterValue, laterExpiration⟩ :=
      apart slot notSource notDestination
    rw [laterValue, laterExpiration, sets.value, sets.expiration,
      if_neg notDestination, if_neg notDestination]
    exact ⟨value, expiration⟩
  · intro short
    obtain ⟨other, different, present, absent⟩ :=
      getOrCreate_evicts short creation
    have notSource : (destination.1, other) ≠ source := by
      intro same
      rw [same] at present
      exact present removes.value_self
    have notDestination : (destination.1, other) ≠ destination := by
      intro same
      exact different (congrArg Prod.snd same)
    obtain ⟨value, -, laterValue, -⟩ :=
      apart _ notSource notDestination
    refine ⟨(destination.1, other), notSource, notDestination, ?_, ?_⟩
    · rw [← value]
      exact present
    · rw [laterValue]
      exact absent

theorem Relocates.kept
    {env : Env} {before between after : Database}
    {source destination : Slot}
    (relocates : Relocates env before between source destination)
    (kept : Kept between after) :
    Relocates env before after source destination := by
  constructor
  · rw [kept.value]
    exact relocates.value
  · rw [kept.expiration]
    exact relocates.expiration
  · rw [kept.value, kept.expiration]
    exact relocates.gone
  · rw [kept.value, kept.expiration]
    exact relocates.spare
  · rw [kept.value]
    exact relocates.short

/-- A command that moves a key. -/
inductive Transfer where
  | rename
  | renamenx
  | move

namespace Transfer

def handle : Transfer → Arguments → Nat → Writer Response
  | rename => Command.rename
  | renamenx => Command.renamenx
  | move => moveKey

/-- The source and the destination that valid arguments name. -/
def slots (transfer : Transfer) (db : Database) (argv : Arguments)
    (dbindex : Nat) : Option (Slot × Slot) :=
  match transfer, argv with
  | move, [_, key, _] =>
      match argv.getI64 2 with
      | .ok targetDb =>
          if 0 ≤ targetDb ∧ targetDb < db.config.databases then
            some ((dbindex, key), (targetDb.toNat, key))
          else none
      | .error _ => none
  | _, [_, key, newkey] => some ((dbindex, key), (dbindex, newkey))
  | _, _ => none

/-- The reply to a transfer that was made. -/
def done : Transfer → Response
  | rename => .ok
  | renamenx => .integer 1
  | move => .integer 1

/-- What a transfer of a live source should do. -/
structure Meets (transfer : Transfer) (env : Env) (before : Database)
    (result : Except Response Response) (after : Database)
    (source destination : Slot) : Prop where
  transferred : result = .ok transfer.done →
    Transferred before after source destination
  refused : transfer ≠ rename →
    (before.visible env destination).isSome = true →
    result = .ok (.integer 0) ∧ after = before

/-- RENAMENX does not touch a live destination; MOVE must not be given one;
otherwise the source has to carry over. -/
def Faithful (transfer : Transfer) (env : Env) (db : Database)
    (source destination : Slot) : Prop :=
  match transfer, (db.visible env destination).isSome with
  | renamenx, true => True
  | move, true => False
  | _, _ => Carries env db source destination

/-- What a transfer of a live source does. -/
def Does (transfer : Transfer) (env : Env) (before : Database)
    (source destination : Slot) (result : Except Response Response)
    (after : Database) : Prop :=
  match transfer, (before.visible env destination).isSome with
  | renamenx, true => result = .ok (.integer 0) ∧ after = before
  | _, _ => result = .ok transfer.done ∧
      Relocates env before after source destination

end Transfer

section Handlers

variable {env : Env} {db : Database} {dbindex : Nat} {key : Bytes}
  {value : Value}

/-- What follows a relocation that ends with the reply `done`. -/
theorem ensures_relocate
    {source destination : Slot} {rest : Unit → Writer Response}
    {done : Response} (distinct : destination ≠ source)
    (live : db.visible env source = some value)
    (replies : ∀ between, Relocates env db between source destination →
      Ensures env (rest ()) (fun result after => result = .ok done ∧
        Relocates env db after source destination) between) :
    Ensures env (relocate source destination value >>= rest)
      (fun result after => result = .ok done ∧
        Relocates env db after source destination) (db.without source) := by
  refine Program.ensures_bind ?_
  refine (relocate_relocates distinct live).mono ?_
  intro result between relocated
  rcases relocated with ⟨rfl, relocates⟩
  exact replies between relocates

/-- Removing a live source leaves the database without it. -/
theorem ensures_remove_live
    {rest : Option Value → Writer Response}
    {post : Except Response Response → Database → Prop}
    (live : db.visible env (dbindex, key) = some value)
    (step : Ensures env (rest (some value)) post
      (db.without (dbindex, key))) :
    Ensures env (Db.remove dbindex key >>= rest) post db := by
  refine ensures_remove ?_
  intro after inside removed
  have alive : db.lapsed env (dbindex, key) = false := by
    cases lapsed : db.lapsed env (dbindex, key) with
    | false => rfl
    | true =>
        unfold visible at live
        rw [if_pos lapsed] at live
        cases live
  rw [remove_live alive] at removed
  obtain ⟨-, rfl⟩ := Prod.mk.inj (Option.some.inj removed)
  rw [live]
  exact step

theorem rename_does
    {name newkey : Bytes} (distinct : newkey ≠ key)
    (live : db.visible env (dbindex, key) = some value) :
    Ensures env (rename [name, key, newkey] dbindex)
      (fun result after => result = .ok .ok ∧
        Relocates env db after (dbindex, key) (dbindex, newkey)) db := by
  unfold rename
  show Ensures env (if key = newkey then _ else _) _ _
  rw [if_neg distinct.symm]
  refine ensures_remove_live live ?_
  dsimp only
  rw [renameTo_eq]
  refine ensures_relocate (by simpa using distinct) live ?_
  intro between relocates
  refine ensures_notify ?_
  intro first firstKept
  refine ensures_notify ?_
  intro second secondKept
  exact Program.ensures_pure ⟨rfl,
    (relocates.kept firstKept).kept secondKept⟩

theorem renamenx_does
    {name newkey : Bytes} (distinct : newkey ≠ key)
    (live : db.visible env (dbindex, key) = some value) :
    Ensures env (renamenx [name, key, newkey] dbindex)
      (Transfer.renamenx.Does env db (dbindex, key) (dbindex, newkey))
      db := by
  unfold renamenx
  show Ensures env (if key = newkey then _ else _) _ _
  rw [if_neg distinct.symm]
  refine ensures_get ?_
  intro inside
  by_cases present : (db.visible env (dbindex, newkey)).isSome = true
  · rw [if_pos present]
    unfold Transfer.Does
    rw [present]
    exact Program.ensures_pure ⟨rfl, rfl⟩
  · rw [if_neg present]
    unfold Transfer.Does
    rw [Bool.eq_false_of_not_eq_true present]
    refine ensures_remove_live live ?_
    dsimp only
    rw [renameTo_eq]
    refine ensures_relocate (by simpa using distinct) live ?_
    intro between relocates
    exact Program.ensures_pure ⟨rfl, relocates⟩

theorem moveKey_does
    {name target : Bytes} {targetDb : Int}
    (given : Arguments.getI64 [name, key, target] 2 = .ok targetDb)
    (inside : 0 ≤ targetDb ∧ targetDb < db.config.databases)
    (distinct : targetDb.toNat ≠ dbindex)
    (live : db.visible env (dbindex, key) = some value) :
    Ensures env (moveKey [name, key, target] dbindex)
      (fun result after => result = .ok (.integer 1) ∧
        Relocates env db after (dbindex, key) (targetDb.toNat, key)) db := by
  unfold moveKey
  rw [given]
  refine ensures_exact (fun _ wrong => absurd rfl wrong) ?_
  intro _
  refine ensures_valid (fun _ _ => nofun) ?_
  intro found isKey
  cases isKey
  refine ensures_valid (fun _ _ => nofun) ?_
  intro number isTarget
  cases isTarget
  refine ensures_op (.read .config) ?_
  intro config same read
  cases read
  refine Program.ensures_ofExcept_bind ?_ ?_
  · intro reply refused
    simp [validate, inside] at refused
  · intro _ _
    dsimp only
    rw [if_neg distinct]
    refine ensures_remove_live live ?_
    have apart : (targetDb.toNat, key) ≠ (dbindex, key) := by
      simpa using distinct
    have moves : Ensures env
        (relocate (dbindex, key) (targetDb.toNat, key) value >>= fun _ =>
          pure (Response.integer 1)) _ (db.without (dbindex, key)) :=
      ensures_relocate apart live fun between relocates =>
        Program.ensures_pure ⟨rfl, relocates⟩
    rw [relocate_bind] at moves
    exact moves

end Handlers

theorem Transfer.handle_does
    {transfer : Transfer} {env : Env} {db : Database} {argv : Arguments}
    {dbindex : Nat} {source destination : Slot} {value : Value}
    (named : transfer.slots db argv dbindex = some (source, destination))
    (distinct : source ≠ destination)
    (live : db.visible env source = some value) :
    Ensures env (transfer.handle argv dbindex)
      (transfer.Does env db source destination) db := by
  unfold slots at named
  split at named
  · rename_i name key target
    split at named
    · rename_i targetDb given
      rw [Option.ite_none_right_eq_some] at named
      rcases named with ⟨inside, same⟩
      cases same
      have apart : targetDb.toNat ≠ dbindex := by
        rintro rfl
        exact distinct rfl
      exact moveKey_does given inside apart live
    · cases named
  · rename_i name key newkey notMove
    cases named
    have apart : newkey ≠ key := by
      rintro rfl
      exact distinct rfl
    cases transfer with
    | rename => exact rename_does apart live
    | renamenx => exact renamenx_does apart live
    | move => exact (notMove rfl).elim
  · cases named

/-- A transfer of a live source to another slot does what it should exactly
if the source carries over. -/
theorem transfer_iff
    {transfer : Transfer} {env : Env} {db after : Database}
    {argv : Arguments} {dbindex : Nat} {source destination : Slot}
    {result : Except Response Response}
    (named : transfer.slots db argv dbindex = some (source, destination))
    (distinct : source ≠ destination)
    (live : (db.live env source).isSome = true)
    (ran : (transfer.handle argv dbindex).run (machine env) db =
      some (result, after)) :
    transfer.Meets env db result after source destination ↔
      transfer.Faithful env db source destination := by
  obtain ⟨⟨value, expiration⟩, stored⟩ := Option.isSome_iff_exists.mp live
  have live : db.visible env source = some value := by
    rw [visible_eq_live, stored]
    rfl
  have present : db.visible env source ≠ none := by
    rw [live]
    exact Option.some_ne_none value
  have does := Transfer.handle_does named distinct live result after ran
  unfold Transfer.Does at does
  unfold Transfer.Faithful
  cases held : (db.visible env destination).isSome with
  | true =>
      rw [held] at does
      cases transfer with
      | rename =>
          rw [← does.2.transferred_iff present]
          constructor
          · exact fun meets => meets.transferred does.1
          · exact fun transferred => ⟨fun _ => transferred, absurd rfl⟩
      | renamenx =>
          refine iff_of_true ⟨?_, fun _ _ => does⟩ trivial
          intro moved
          cases does.1.symm.trans moved
      | move =>
          refine iff_of_false ?_ not_false
          intro meets
          have refused := (meets.refused nofun held).1
          cases does.1.symm.trans refused
  | false =>
      rw [held] at does
      have shared : result = .ok transfer.done ∧
          Relocates env db after source destination := by
        cases transfer with
        | rename => exact does
        | renamenx => exact does
        | move => exact does
      have iff := shared.2.transferred_iff present
      have meets : transfer.Meets env db result after source destination ↔
          Carries env db source destination := by
        rw [← iff]
        constructor
        · exact fun meets => meets.transferred shared.1
        · intro transferred
          refine ⟨fun _ => transferred, ?_⟩
          intro _ some
          cases held.symm.trans some
      cases transfer with
      | rename => exact meets
      | renamenx => exact meets
      | move => exact meets

end Command

end

/-! ## A volatile key -/

section

attribute [local instance] Platform.integral

namespace Command

/-- A database with a string under a key. -/
def persistentKey : Database :=
  (Database.new {} none).put 0 (text "a") (.setString (text "x"))

/-- The same with an expiration. -/
def volatileKey : Database :=
  persistentKey.setExpirations 0 (Finmap.singleton (text "a") 100)

/-- RENAME loses the expiration of its source. -/
theorem transfer_not_faithful :
    ¬∀ (transfer : Transfer) (env : Env) (db after : Database)
      (argv : Arguments) (dbindex : Nat) (source destination : Slot)
      (result : Except Response Response),
      transfer.slots db argv dbindex = some (source, destination) →
      source ≠ destination →
      (db.live env source).isSome = true →
      (transfer.handle argv dbindex).run (machine env) db =
        some (result, after) →
      transfer.Meets env db result after source destination := by
  intro meets
  let argv := [text "RENAME", text "a", text "b"]
  have replied : ((rename argv 0).run (machine (.still 0)) volatileKey).map
      Prod.fst = some (.ok .ok) :=
    rfl
  have persists : ((rename argv 0).run (machine (.still 0)) volatileKey).map
      (fun ended => ended.2.expiration (0, text "b")) = some none := by
    decide +kernel
  obtain ⟨⟨result, after⟩, ran, isOk⟩ := Option.map_eq_some_iff.mp replied
  cases isOk
  have kept := meets .rename (.still 0) volatileKey after argv 0
    (0, text "a") (0, text "b") (.ok .ok) rfl (by decide)
    (by decide +kernel) ran
  have expiration := (kept.transferred rfl).expiration
  rw [ran, Option.map_some, expiration] at persists
  revert persists
  decide +kernel

/-- A key without an expiration is renamed as it should be. -/
theorem transfer_persistent :
    ∃ after, (rename [text "RENAME", text "a", text "b"] 0).run
        (machine (.still 0)) persistentKey = some (.ok .ok, after) ∧
      Transfer.rename.Meets (.still 0) persistentKey (.ok .ok) after
        (0, text "a") (0, text "b") := by
  have replied : ((rename [text "RENAME", text "a", text "b"] 0).run
      (machine (.still 0)) persistentKey).map Prod.fst = some (.ok .ok) :=
    rfl
  obtain ⟨⟨result, after⟩, ran, isOk⟩ := Option.map_eq_some_iff.mp replied
  cases isOk
  have iff : Transfer.rename.Meets (.still 0) persistentKey (.ok .ok) after
        (0, text "a") (0, text "b") ↔
      Transfer.rename.Faithful (.still 0) persistentKey (0, text "a")
        (0, text "b") :=
    transfer_iff rfl (by decide) (by decide +kernel) ran
  refine ⟨after, ran, iff.mpr ?_⟩
  constructor
  · rfl
  · rfl
  · rfl

end Command

end

end RedVector
