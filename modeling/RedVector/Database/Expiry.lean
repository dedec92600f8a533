import RedVector.Database.Live
import RedVector.Database.Stamps
import RedVector.Value.Rdb

/-!
# Active expiry

The cycle that a thread of its own runs now and then.  It looks keys with an
expiration up at random, as a command would that writes to them.  The clock
that decides about expirations stands still meanwhile; the times that the
cycle measures for itself are arbitrary.
-/

namespace RedVector.Database

open Util Effect

/-! ## The cycle -/

section

variable [Platform]

/-- `ACTIVE_EXPIRE_CYCLE_LOOKUPS_PER_LOOP`. -/
def lookupsPerLoop : Nat := 20

/-- `random_key!`; `draw` counts the calls. -/
def randomKey (env : Env) (draw : Nat) (dict : HashMap Bytes Int) :
    Option Bytes :=
  (env.order dict.keys)[env.random draw % dict.keys.card]?

/-- The inner loop, which looks up as many keys as are left to be looked up
and counts those that are not found. -/
def expireKeys (env : Env) (dbindex : Nat) :
    Nat → Nat → Nat → Database → Option (Nat × Nat × Database)
  | 0, draw, expired, db => some (draw, expired, db)
  | num + 1, draw, expired, db =>
      if (db.dataExpirationMs dbindex).keys.card = 0 then
        some (draw, expired, db)
      else do
        let key ← randomKey env draw (db.dataExpirationMs dbindex)
        let (found, db) ← db.getMut env dbindex key
        expireKeys env dbindex num (draw + 1)
          (if found.isNone then expired + 1 else expired) db

/-- The variables of the cycle, and how many keys it has drawn. -/
structure ExpireCycle where
  draw : Nat
  iteration : Nat
  activeExpireCycleDb : Nat
  db : Database

/-- How a loop ends. -/
inductive LoopEnd where
  | panics
  /-- The whole cycle returns. -/
  | returns (cycle : ExpireCycle)
  | breaks (cycle : ExpireCycle)

/-- The loop over one database, which is not bounded; none if it has not ended
after so many iterations.  `elapsed` is what the cycle measures at an
iteration. -/
def expireLoop (env : Env) (elapsed : Nat → Int) (durationMs : Int)
    (dbindex : Nat) : Nat → ExpireCycle → Option LoopEnd
  | 0, _ => none
  | fuel + 1, cycle =>
      -- this is the number of databases, not of keys
      let num := min cycle.db.config.databases lookupsPerLoop
      if num = 0 then some (.breaks cycle)
      else
        match expireKeys env dbindex num cycle.draw 0 cycle.db with
        | none => some .panics
        | some (draw, expired, db) =>
            let iteration := cycle.iteration + 1
            let cycle :=
              { cycle with draw := draw, iteration := iteration, db := db }
            if iteration &&& 16 = 0 ∧ durationMs < elapsed iteration then
              some (.returns cycle)
            else if expired ≤ lookupsPerLoop / 4 then some (.breaks cycle)
            else expireLoop env elapsed durationMs dbindex fuel cycle

/-- The loop over the databases that are left. -/
def expireDatabases (env : Env) (elapsed : Nat → Int) (durationMs : Int)
    (fuel : Nat) : Nat → ExpireCycle → Option LoopEnd
  | 0, cycle => some (.breaks cycle)
  | rest + 1, cycle =>
      let dbindex := cycle.activeExpireCycleDb
      let next :=
        if dbindex + 1 = cycle.db.config.databases then 0 else dbindex + 1
      match expireLoop env elapsed durationMs dbindex fuel
          { cycle with activeExpireCycleDb := next } with
      | some (.breaks cycle) =>
          expireDatabases env elapsed durationMs fuel rest cycle
      | other => other

/-- `active_expire_cycle` from the database that the last one has stopped
at. -/
def runExpireCycle (env : Env) (elapsed : Nat → Int) (durationMs : Int)
    (fuel activeExpireCycleDb : Nat) (db : Database) : Option LoopEnd :=
  expireDatabases env elapsed durationMs fuel db.config.databases
    ⟨0, 0, activeExpireCycleDb, db⟩

/-- The cycle that is left by an end, unless that is a panic. -/
def LoopEnd.cycle? : LoopEnd → Option ExpireCycle
  | .panics => none
  | .returns cycle => some cycle
  | .breaks cycle => some cycle

/-! ## Keys that are looked up -/

/-- What looking keys of a database up leaves behind: what has lapsed may be
gone, and what has not may have been accessed. -/
structure Probed (env : Env) (before after : Database) : Prop where
  config : after.config = before.config
  loading : after.loading = before.loading
  slots : ∀ slot,
    (after.value slot = before.value slot ∧
        after.expiration slot = before.expiration slot ∧
        (after.stamp slot = before.stamp slot ∨
          before.usesLru = true ∧ slot.1 < before.config.databases ∧
            before.expiration slot ≠ none ∧
            before.lapsed env slot = false ∧
            after.stamp slot = some env.now)) ∨
      (before.lapsed env slot = true ∧ after.value slot = none ∧
        after.expiration slot = none ∧ after.stamp slot = none)

variable {env : Env} {db after : Database} {dbindex : Nat}

theorem Probed.refl (env : Env) (db : Database) : Probed env db db :=
  ⟨rfl, rfl, fun _ => .inl ⟨rfl, rfl, .inl rfl⟩⟩

theorem usesLru_congr (config : after.config = db.config) :
    after.usesLru = db.usesLru := by
  unfold usesLru
  rw [config]

theorem Probed.trans {before between after : Database}
    (first : Probed env before between) (second : Probed env between after) :
    Probed env before after := by
  refine ⟨second.config.trans first.config,
    second.loading.trans first.loading, ?_⟩
  intro slot
  rcases first.slots slot with
    ⟨value, expiration, stamp⟩ | ⟨lapsed, value, expiration, stamp⟩
  · have sameLapsed : between.lapsed env slot = before.lapsed env slot :=
      lapsed_congr first.loading expiration
    rcases second.slots slot with
      ⟨value', expiration', stamp'⟩ | ⟨lapsed', gone⟩
    · rw [usesLru_congr first.config, first.config, expiration, sameLapsed]
        at stamp'
      refine .inl ⟨value'.trans value, expiration'.trans expiration, ?_⟩
      rcases stamp' with same | accessed
      · rw [same]
        exact stamp
      · exact .inr accessed
    · exact .inr ⟨sameLapsed.symm.trans lapsed', gone⟩
  · have notLapsed : between.lapsed env slot = false := by
      rw [lapsed_eq, expiration]
      simp
    rcases second.slots slot with
      ⟨value', expiration', same | accessed⟩ | ⟨lapsed', -⟩
    · exact .inr ⟨lapsed, value'.trans value, expiration'.trans expiration,
        same.trans stamp⟩
    · exact absurd expiration accessed.2.2.1
    · cases notLapsed.symm.trans lapsed'

/-- Looking one key with an expiration up. -/
theorem getMut_probed {key : Bytes} {result : Option Value}
    (inside : dbindex < db.config.databases)
    (expires : db.expiration (dbindex, key) ≠ none)
    (got : db.getMut env dbindex key = some (result, after)) :
    Probed env db after := by
  obtain ⟨-, spec⟩ := getMut_spec got
  have stamps := getMut_stamp got
  split at spec
  · rename_i lapsed
    obtain ⟨sets, -⟩ := spec
    refine ⟨sets.frame.config, sets.frame.loading, ?_⟩
    intro slot
    rw [sets.value, sets.expiration, stamps]
    by_cases same : slot = (dbindex, key)
    · subst same
      simp [lapsed]
    · simp [same]
  · rename_i live
    refine ⟨spec.frame.config, spec.frame.loading, ?_⟩
    intro slot
    rw [spec.value, spec.expiration, stamps]
    refine .inl ⟨rfl, rfl, ?_⟩
    by_cases accessed : db.usesLru = true ∧ slot = (dbindex, key)
    · obtain ⟨lru, rfl⟩ := accessed
      have alive : db.lapsed env (dbindex, key) = false := by
        simpa using live
      exact .inr ⟨lru, inside, expires, alive, by simp [alive, lru]⟩
    · refine .inl ?_
      rw [if_neg (fun both => live both.1), if_neg (fun all => accessed all.2)]

/-- A drawn key has an expiration. -/
theorem randomKey_expires {draw : Nat} {key : Bytes}
    (drawn : randomKey env draw (db.dataExpirationMs dbindex) = some key) :
    db.expiration (dbindex, key) ≠ none := by
  have member := List.mem_of_getElem? drawn
  rw [env.mem_order, Finmap.mem_keys, ← Finmap.lookup_isSome] at member
  exact Option.isSome_iff_ne_none.mp member

theorem expireKeys_probed {num draw expired draw' expired' : Nat}
    (inside : dbindex < db.config.databases)
    (ran : expireKeys env dbindex num draw expired db =
      some (draw', expired', after)) : Probed env db after := by
  induction num generalizing draw expired db with
  | zero =>
      cases ran
      exact .refl env _
  | succ num ih =>
      rw [expireKeys] at ran
      split at ran
      · cases ran
        exact .refl env _
      · obtain ⟨key, drawn, ran⟩ := Option.bind_eq_some_iff.mp ran
        obtain ⟨⟨found, between⟩, got, ran⟩ := Option.bind_eq_some_iff.mp ran
        have first := getMut_probed inside (randomKey_expires drawn) got
        rw [← first.config] at inside
        exact first.trans (ih inside ran)

/-! ## The loops -/

/-- Only the number of the next database and what is counted change besides
the database. -/
theorem expireLoop_probed {elapsed : Nat → Int} {durationMs : Int}
    {fuel : Nat} {cycle left : ExpireCycle} {ended : LoopEnd}
    (ran : expireLoop env elapsed durationMs dbindex fuel cycle = some ended)
    (isLeft : ended.cycle? = some left)
    (inside : dbindex < cycle.db.config.databases) :
    Probed env cycle.db left.db ∧
      left.activeExpireCycleDb = cycle.activeExpireCycleDb := by
  induction fuel generalizing cycle with
  | zero => cases ran
  | succ fuel ih =>
      rw [expireLoop] at ran
      dsimp only at ran
      split at ran
      · cases ran
        cases isLeft
        exact ⟨.refl env _, rfl⟩
      · split at ran
        · cases ran
          cases isLeft
        · rename_i draw expired db found
          have probed := expireKeys_probed inside found
          split at ran
          · cases ran
            cases isLeft
            exact ⟨probed, rfl⟩
          · split at ran
            · cases ran
              cases isLeft
              exact ⟨probed, rfl⟩
            · rw [← probed.config] at inside
              obtain ⟨others, cursor⟩ := ih ran inside
              exact ⟨probed.trans others, cursor⟩

theorem expireDatabases_probed {elapsed : Nat → Int} {durationMs : Int}
    {fuel rest : Nat} {cycle left : ExpireCycle} {ended : LoopEnd}
    (inside : cycle.activeExpireCycleDb < cycle.db.config.databases)
    (ran : expireDatabases env elapsed durationMs fuel rest cycle =
      some ended)
    (isLeft : ended.cycle? = some left) : Probed env cycle.db left.db := by
  induction rest generalizing cycle with
  | zero =>
      cases ran
      cases isLeft
      exact .refl env _
  | succ rest ih =>
      rw [expireDatabases] at ran
      split at ran
      · rename_i between found
        obtain ⟨probed, cursor⟩ := expireLoop_probed found rfl inside
        dsimp only at probed cursor
        have next : between.activeExpireCycleDb <
            between.db.config.databases := by
          rw [cursor, probed.config]
          split
          · omega
          · omega
        exact probed.trans (ih next ran)
      · exact (expireLoop_probed ran isLeft inside).1

/-! ## Termination -/

/-- Every expiration of a database is of a value, unless it has lapsed. -/
def Backed (env : Env) (db : Database) : Prop :=
  ∀ slot, slot.1 < db.config.databases → db.expiration slot ≠ none →
    db.lapsed env slot = true ∨ db.value slot ≠ none

theorem Backed.probed (backed : Backed env db) (probed : Probed env db after) :
    Backed env after := by
  intro slot inside expires
  rcases probed.slots slot with ⟨value, expiration, -⟩ | ⟨-, -, gone, -⟩
  · rw [lapsed_congr probed.loading expiration, value]
    rw [probed.config] at inside
    rw [expiration] at expires
    exact backed slot inside expires
  · exact absurd gone expires

/-- How many expirations a database has. -/
def expirations (db : Database) (dbindex : Nat) : Nat :=
  (db.dataExpirationMs dbindex).keys.card

theorem mem_expirations {key : Bytes} :
    key ∈ (db.dataExpirationMs dbindex).keys ↔
      db.expiration (dbindex, key) ≠ none := by
  rw [Finmap.mem_keys, ← Finmap.lookup_isSome]
  exact Option.isSome_iff_ne_none

theorem Probed.expirations_subset (probed : Probed env db after)
    (dbindex : Nat) : (after.dataExpirationMs dbindex).keys ⊆
      (db.dataExpirationMs dbindex).keys := by
  intro key member
  rw [mem_expirations] at member ⊢
  rcases probed.slots (dbindex, key) with ⟨-, same, -⟩ | ⟨-, -, gone, -⟩
  · rw [← same]
    exact member
  · exact absurd gone member

theorem Probed.expirations_le (probed : Probed env db after)
    (dbindex : Nat) : after.expirations dbindex ≤ db.expirations dbindex :=
  Finset.card_le_card (probed.expirations_subset dbindex)

/-- A key with a value that is not found had lapsed and is gone. -/
theorem getMut_missed {key : Bytes} {found : Option Value}
    (inside : dbindex < db.config.databases) (backed : Backed env db)
    (expires : db.expiration (dbindex, key) ≠ none)
    (got : db.getMut env dbindex key = some (found, after)) :
    after.expirations dbindex + (if found.isNone then 1 else 0) ≤
      db.expirations dbindex := by
  have probed := getMut_probed inside expires got
  obtain ⟨isFound, spec⟩ := getMut_spec got
  split at spec
  · obtain ⟨sets, -⟩ := spec
    have fewer : after.expirations dbindex < db.expirations dbindex := by
      apply Finset.card_lt_card
      rw [Finset.ssubset_iff_of_subset (probed.expirations_subset dbindex)]
      refine ⟨key, mem_expirations.mpr expires, ?_⟩
      intro member
      exact mem_expirations.mp member sets.expiration_self
    split
    · omega
    · omega
  · rename_i live
    have stored : db.value (dbindex, key) ≠ none := by
      rcases backed (dbindex, key) inside expires with lapsed | stored
      · exact absurd lapsed live
      · exact stored
    have isSome : found.isNone = false := by
      rw [isFound, visible, if_neg live]
      exact Option.isNone_eq_false_iff.mpr
        (Option.isSome_iff_ne_none.mpr stored)
    rw [isSome]
    exact probed.expirations_le dbindex

/-- Where every expiration is of a value, whatever is not found is gone. -/
theorem expireKeys_missed {num draw expired draw' expired' : Nat}
    (inside : dbindex < db.config.databases) (backed : Backed env db)
    (ran : expireKeys env dbindex num draw expired db =
      some (draw', expired', after)) :
    after.expirations dbindex + expired' ≤
      db.expirations dbindex + expired := by
  induction num generalizing draw expired db with
  | zero =>
      cases ran
      exact le_refl _
  | succ num ih =>
      rw [expireKeys] at ran
      split at ran
      · cases ran
        exact le_refl _
      · obtain ⟨key, drawn, ran⟩ := Option.bind_eq_some_iff.mp ran
        obtain ⟨⟨found, between⟩, got, ran⟩ := Option.bind_eq_some_iff.mp ran
        have expires := randomKey_expires drawn
        have probed := getMut_probed inside expires got
        have one := getMut_missed inside backed expires got
        rw [← probed.config] at inside
        have others := ih inside (backed.probed probed) ran
        split at one
        · rename_i missed
          rw [if_pos missed] at others
          omega
        · rename_i hit
          rw [if_neg hit] at others
          omega

theorem expireKeys_le {num draw expired draw' expired' : Nat}
    (ran : expireKeys env dbindex num draw expired db =
      some (draw', expired', after)) : expired' ≤ expired + num := by
  induction num generalizing draw expired db with
  | zero =>
      cases ran
      exact le_refl _
  | succ num ih =>
      rw [expireKeys] at ran
      split at ran
      · cases ran
        omega
      · obtain ⟨key, drawn, ran⟩ := Option.bind_eq_some_iff.mp ran
        obtain ⟨⟨found, between⟩, got, ran⟩ := Option.bind_eq_some_iff.mp ran
        have others := ih ran
        split at others
        · omega
        · omega

/-- Few keys are looked up at once, or what is not found is gone. -/
def Settles (env : Env) (db : Database) : Prop :=
  db.config.databases ≤ lookupsPerLoop / 4 ∨ Backed env db

theorem Settles.probed (settles : Settles env db)
    (probed : Probed env db after) : Settles env after := by
  rcases settles with few | backed
  · rw [← probed.config] at few
    exact .inl few
  · exact .inr (backed.probed probed)

theorem expireLoop_ends {elapsed : Nat → Int} {durationMs : Int}
    {fuel : Nat} {cycle : ExpireCycle}
    (inside : dbindex < cycle.db.config.databases)
    (settles : Settles env cycle.db)
    (enough : cycle.db.expirations dbindex < fuel) :
    expireLoop env elapsed durationMs dbindex fuel cycle ≠ none := by
  induction fuel generalizing cycle with
  | zero => exact absurd enough (Nat.not_lt_zero _)
  | succ fuel ih =>
      rw [expireLoop]
      dsimp only
      split
      · exact Option.some_ne_none _
      · split
        · exact Option.some_ne_none _
        · rename_i draw expired db found
          have probed := expireKeys_probed inside found
          split
          · exact Option.some_ne_none _
          · split
            · exact Option.some_ne_none _
            · rename_i many
              apply ih
              · dsimp only
                rw [probed.config]
                exact inside
              · exact settles.probed probed
              · dsimp only
                rcases settles with few | backed
                · have bound := expireKeys_le found
                  omega
                · have fewer := expireKeys_missed inside backed found
                  omega

theorem expireDatabases_ends {elapsed : Nat → Int} {durationMs : Int}
    {fuel rest : Nat} {cycle : ExpireCycle}
    (inside : cycle.activeExpireCycleDb < cycle.db.config.databases)
    (settles : Settles env cycle.db)
    (enough : ∀ index, index < cycle.db.config.databases →
      cycle.db.expirations index < fuel) :
    expireDatabases env elapsed durationMs fuel rest cycle ≠ none := by
  induction rest generalizing cycle with
  | zero => exact Option.some_ne_none _
  | succ rest ih =>
      rw [expireDatabases]
      split
      · rename_i between found
        obtain ⟨probed, cursor⟩ := expireLoop_probed found rfl inside
        dsimp only at probed cursor
        apply ih
        · rw [cursor, probed.config]
          split
          · omega
          · omega
        · exact settles.probed probed
        · intro index below
          rw [probed.config] at below
          exact (probed.expirations_le index).trans_lt (enough index below)
      · exact expireLoop_ends inside settles (enough _ inside)

/-! ## When the cycle is harmless -/

/-- Every expiration that has not lapsed is of a key that was accessed just
now, unless access times are not kept. -/
def Recent (env : Env) (db : Database) : Prop :=
  db.usesLru = false ∨ ∀ slot, slot.1 < db.config.databases →
    db.expiration slot ≠ none →
    db.lapsed env slot = true ∨ db.stamp slot = some env.now

/-- Only keys whose expiration has come are gone, and nothing else is
different. -/
def ExpiresOnly (env : Env) (before after : Database) : Prop :=
  ∀ slot,
    (after.value slot = before.value slot ∧
        after.expiration slot = before.expiration slot ∧
        after.stamp slot = before.stamp slot) ∨
      (∃ time, before.expiration slot = some time ∧ time ≤ env.now) ∧
        after.value slot = none ∧ after.expiration slot = none ∧
        after.stamp slot = none

theorem Probed.expiresOnly (probed : Probed env db after)
    (recent : Recent env db) : ExpiresOnly env db after := by
  intro slot
  rcases probed.slots slot with
    ⟨value, expiration, stamp⟩ | ⟨lapsed, gone⟩
  · rcases stamp with same | ⟨lru, inside, expires, alive, stamp⟩
    · exact .inl ⟨value, expiration, same⟩
    · rcases recent with unused | recent
      · cases unused.symm.trans lru
      · rcases recent slot inside expires with lapsed | same
        · cases alive.symm.trans lapsed
        · exact .inl ⟨value, expiration, stamp.trans same.symm⟩
  · refine .inr ⟨?_, gone⟩
    rw [lapsed_eq, Bool.and_eq_true] at lapsed
    cases expiration : db.expiration slot with
    | none => simp [expiration] at lapsed
    | some time => exact ⟨time, rfl, by simpa [expiration] using lapsed.2⟩

/-- Whatever keys are drawn, whatever times are measured and wherever the
cycle starts, it ends and only removes keys whose expiration has come. -/
def ExpiresHarmlessly (env : Env) (db : Database) : Prop :=
  ∀ (random : Nat → Nat) (elapsed : Nat → Int) (durationMs : Int)
    (start : Nat), start < db.config.databases →
    let drawing : Env := { env with random := random }
    (∃ fuel, runExpireCycle drawing elapsed durationMs fuel start db ≠
      none) ∧
    ∀ fuel ended left,
      runExpireCycle drawing elapsed durationMs fuel start db = some ended →
      ended.cycle? = some left → ExpiresOnly env db left.db

theorem expiresHarmlessly (settles : Settles env db)
    (recent : Recent env db) : ExpiresHarmlessly env db := by
  intro random elapsed durationMs start inside drawing
  constructor
  · let most := (Finset.range db.config.databases).sup db.expirations
    refine ⟨most + 1, ?_⟩
    apply expireDatabases_ends
    · exact inside
    · exact settles
    · intro index below
      have le : db.expirations index ≤ most :=
        Finset.le_sup (Finset.mem_range.mpr below)
      exact Nat.lt_succ_of_le le
  · intro fuel ended left ran isLeft
    exact (expireDatabases_probed inside ran isLeft).expiresOnly recent

/-! ## Drawing one key again and again -/

section Same

variable {position : Nat} {key : Bytes}

theorem order_length (env : Env) (keys : Finset Bytes) :
    (env.order keys).length = keys.card :=
  Rdb.Lists.length ⟨env.order_nodup, env.mem_order⟩ keys

/-- The random numbers that draw a key draw it again. -/
theorem randomKey_same (random : ∀ draw, env.random draw = position)
    {dict : HashMap Bytes Int}
    (drawn : (env.order dict.keys)[position]? = some key) (draw : Nat) :
    randomKey env draw dict = some key := by
  obtain ⟨below, -⟩ := List.getElem?_eq_some_iff.mp drawn
  rw [order_length] at below
  unfold randomKey
  rw [random, Nat.mod_eq_of_lt below]
  exact drawn

theorem getMut_alive (alive : db.lapsed env (dbindex, key) = false) :
    db.getMut env dbindex key =
      some (db.value (dbindex, key), db.updateLru env dbindex key) := by
  have alive : ¬db.isExpired env dbindex key = true := by
    rw [show db.isExpired env dbindex key = false from alive]
    exact Bool.false_ne_true
  simp only [getMut]
  rw [if_neg alive]
  rfl

/-- A key that has not lapsed is accessed, and it is counted if it has no
value. -/
theorem expireKeys_same (random : ∀ draw, env.random draw = position)
    (drawn : (env.order (db.dataExpirationMs dbindex).keys)[position]? =
      some key)
    (alive : db.lapsed env (dbindex, key) = false) (num draw expired : Nat) :
    ∃ draw' expired' after,
      expireKeys env dbindex num draw expired db =
        some (draw', expired', after) ∧
      Kept db after ∧ after.dataExpirationMs = db.dataExpirationMs ∧
      (db.usesLru = true →
        0 < num ∨ db.stamp (dbindex, key) = some env.now →
        after.stamp (dbindex, key) = some env.now) ∧
      (db.value (dbindex, key) = none → expired' = expired + num) := by
  induction num generalizing draw expired db with
  | zero =>
      refine ⟨draw, expired, db, rfl, .refl db, rfl, ?_, fun _ => rfl⟩
      intro _ accessed
      rcases accessed with never | accessed
      · cases never
      · exact accessed
  | succ num ih =>
      let between := db.updateLru env dbindex key
      have kept : Kept db between := updateLru_kept env db dbindex key
      have same : between.dataExpirationMs = db.dataExpirationMs := by
        obtain ⟨lru, isLru⟩ := updateLru_eq env db dbindex key
        change (db.updateLru env dbindex key).dataExpirationMs = _
        rw [isLru]
      have some : (db.dataExpirationMs dbindex).keys.card ≠ 0 := by
        obtain ⟨below, -⟩ := List.getElem?_eq_some_iff.mp drawn
        rw [order_length] at below
        omega
      have first : expireKeys env dbindex (num + 1) draw expired db =
          expireKeys env dbindex num (draw + 1)
            (if (db.value (dbindex, key)).isNone then expired + 1
              else expired) between := by
        rw [expireKeys, if_neg some, randomKey_same random drawn]
        simp only [Option.bind_eq_bind, Option.bind_some,
          getMut_alive alive]
        rfl
      rw [first]
      have stillDrawn : (env.order (between.dataExpirationMs
          dbindex).keys)[position]? = Option.some key := by
        rw [same]
        exact drawn
      have stillAlive : between.lapsed env (dbindex, key) = false := by
        rw [← alive]
        exact lapsed_congr kept.frame.loading (congrFun kept.expiration _)
      obtain ⟨draw', expired', after, ran, others, map, accessed, missed⟩ :=
        ih stillDrawn stillAlive (draw + 1)
          (if (db.value (dbindex, key)).isNone then expired + 1
            else expired)
      refine ⟨draw', expired', after, ran, kept.trans others,
        map.trans same, ?_, ?_⟩
      · intro lru _
        have sameLru : between.usesLru = true := by
          rw [usesLru_congr kept.frame.config]
          exact lru
        apply accessed sameLru
        refine .inr ?_
        rw [updateLru_stamp, if_pos ⟨lru, rfl⟩]
      · intro absent
        have stillAbsent : between.value (dbindex, key) = none := by
          rw [kept.value]
          exact absent
        rw [missed stillAbsent, absent]
        simp only [Option.isNone_none, if_true]
        omega

/-- The cycle accesses a key that it should not touch. -/
theorem runExpireCycle_accesses
    (random : ∀ draw, env.random draw = position)
    (drawn : (env.order (db.dataExpirationMs dbindex).keys)[position]? =
      some key)
    (inside : dbindex < db.config.databases)
    (alive : db.lapsed env (dbindex, key) = false)
    (lru : db.usesLru = true) :
    ∃ left, runExpireCycle env (fun _ => 1) 0 1 dbindex db =
        some (.returns left) ∧
      left.db.stamp (dbindex, key) = some env.now := by
  have num : min db.config.databases lookupsPerLoop ≠ 0 := by
    unfold lookupsPerLoop
    omega
  obtain ⟨draw, expired, after, ran, -, -, accessed, -⟩ :=
    expireKeys_same random drawn alive
      (min db.config.databases lookupsPerLoop) 0 0
  obtain ⟨rest, isRest⟩ := Nat.exists_eq_succ_of_ne_zero (by omega :
    db.config.databases ≠ 0)
  let next := if dbindex + 1 = db.config.databases then 0 else dbindex + 1
  refine ⟨⟨draw, 1, next, after⟩, ?_,
    accessed lru (.inl (Nat.pos_of_ne_zero num))⟩
  unfold runExpireCycle
  rw [isRest, expireDatabases, expireLoop]
  dsimp only
  rw [if_neg num, ran]
  rfl

/-- The loop over a database with an expiration of no value never ends if it
draws that all the time. -/
theorem expireLoop_lasts
    (random : ∀ draw, env.random draw = position) {cycle : ExpireCycle}
    (drawn : (env.order (cycle.db.dataExpirationMs dbindex).keys)[position]? =
      some key)
    (many : lookupsPerLoop / 4 < cycle.db.config.databases)
    (alive : cycle.db.lapsed env (dbindex, key) = false)
    (absent : cycle.db.value (dbindex, key) = none) (fuel : Nat) :
    expireLoop env (fun _ => 0) 0 dbindex fuel cycle = none := by
  induction fuel generalizing cycle with
  | zero => rfl
  | succ fuel ih =>
      let num := min cycle.db.config.databases lookupsPerLoop
      have some : num ≠ 0 ∧ lookupsPerLoop / 4 < num := by
        unfold num lookupsPerLoop at *
        omega
      obtain ⟨draw, expired, after, ran, kept, map, -, missed⟩ :=
        expireKeys_same random drawn alive num cycle.draw 0
      have isExpired := missed absent
      rw [expireLoop]
      dsimp only
      rw [if_neg some.1, ran]
      dsimp only
      rw [if_neg (fun both => lt_irrefl _ both.2), if_neg (by omega)]
      apply ih
      · dsimp only
        rw [map]
        exact drawn
      · dsimp only
        rw [kept.frame.config]
        exact many
      · rw [← alive]
        exact lapsed_congr kept.frame.loading (congrFun kept.expiration _)
      · dsimp only
        rw [kept.value]
        exact absent

theorem runExpireCycle_lasts
    (random : ∀ draw, env.random draw = position)
    (drawn : (env.order (db.dataExpirationMs dbindex).keys)[position]? =
      some key)
    (many : lookupsPerLoop / 4 < db.config.databases)
    (alive : db.lapsed env (dbindex, key) = false)
    (absent : db.value (dbindex, key) = none) (fuel : Nat) :
    runExpireCycle env (fun _ => 0) 0 fuel dbindex db = none := by
  obtain ⟨rest, isRest⟩ := Nat.exists_eq_succ_of_ne_zero (by omega :
    db.config.databases ≠ 0)
  unfold runExpireCycle
  rw [isRest, expireDatabases]
  dsimp only
  rw [expireLoop_lasts random drawn many alive absent]

end Same

/-- A key with an expiration is drawn by some random number. -/
theorem exists_drawn (env : Env) {slot : Slot}
    (expires : db.expiration slot ≠ none) :
    ∃ position : Nat,
      (env.order (db.dataExpirationMs slot.1).keys)[position]? =
        some slot.2 := by
  have member : slot.2 ∈ env.order (db.dataExpirationMs slot.1).keys := by
    rw [env.mem_order, mem_expirations]
    exact expires
  exact List.getElem?_of_mem member

theorem settles_of_harmless (harmless : ExpiresHarmlessly env db) :
    Settles env db := by
  by_cases few : db.config.databases ≤ lookupsPerLoop / 4
  · exact .inl few
  refine .inr ?_
  intro slot inside expires
  by_contra dangling
  rw [not_or, not_not, Bool.not_eq_true] at dangling
  obtain ⟨position, drawn⟩ := exists_drawn env expires
  let drawing : Env := { env with random := fun _ => position }
  have random : ∀ draw, drawing.random draw = position := fun _ => rfl
  obtain ⟨⟨fuel, ended⟩, -⟩ :=
    harmless (fun _ => position) (fun _ => 0) 0 slot.1 inside
  apply ended
  exact runExpireCycle_lasts random drawn (Nat.lt_of_not_le few) dangling.1
    dangling.2 fuel

theorem recent_of_harmless (harmless : ExpiresHarmlessly env db) :
    Recent env db := by
  by_cases lru : db.usesLru = true
  · refine .inr ?_
    intro slot inside expires
    by_cases lapsed : db.lapsed env slot = true
    · exact .inl lapsed
    refine .inr ?_
    have alive : db.lapsed env slot = false := by simpa using lapsed
    obtain ⟨position, drawn⟩ := exists_drawn env expires
    let drawing : Env := { env with random := fun _ => position }
    have random : ∀ draw, drawing.random draw = position := fun _ => rfl
    obtain ⟨left, ran, accessed⟩ :=
      runExpireCycle_accesses random drawn inside alive lru
    obtain ⟨-, only⟩ :=
      harmless (fun _ => position) (fun _ => 1) 0 slot.1 inside
    rcases only 1 _ left ran rfl slot with ⟨-, -, same⟩ | ⟨-, -, -, gone⟩
    · exact same.symm.trans accessed
    · cases gone.symm.trans accessed
  · exact .inl (by simpa using lru)

end

/-! ## A key that is accessed -/

section

attribute [local instance] Platform.integral

/-- A key that expires later and was never accessed. -/
noncomputable def expiring : Database :=
  ((Database.new { maxmemoryPolicy := text "allkeys-lru" } none).put 0
      (text "k") (.setString (text "v"))).setExpirations 0
    ((∅ : HashMap Bytes Int).insert (text "k") 1000)

end

end RedVector.Database
