import RedVector.Command.Hashes
import RedVector.Command.SortedSets
import RedVector.Command.Specs
import RedVector.Effect.Cursor
import RedVector.Value.SortedInvariant

/-!
# Scanning

The four commands that visit a collection in pages.  A cursor is a position in
the collection as the call lists it.
-/

namespace RedVector

open Util Effect Database

section

variable [Platform]

namespace Command

/-- The commands that scan a collection. -/
inductive ScanCommand where
  | scan
  | sscan
  | hscan
  | zscan

/-- A call of one of them. -/
structure ScanCall where
  env : Env
  db : Database
  dbindex : Nat
  argv : Arguments

/-- The first of every two elements. -/
def evens {α : Type} : List α → List α
  | first :: _ :: rest => first :: evens rest
  | _ => []

/-- The members of the set that SSCAN lists. -/
def setEntries (order : Finset Bytes → List Bytes) (value : Value) :
    Operation (List Bytes) :=
  order <$> value.smembers

def hashPairs (order : Finset Bytes → List Bytes) (value : Value) :
    Operation (List (Bytes × Bytes)) :=
  hashEntries order <$> value.hgetall

def sortedEntries (_ : Finset Bytes → List Bytes) (value : Value) :
    Operation (List SortedSetMember) :=
  match value with
  | .nil => .ok []
  | .sortedSet zset => .ok zset.skiplist
  | _ => .error .wrongTypeError

namespace ScanCall

/-- The names of the entries of the key that the call names. -/
def keyNames {α : Type}
    (entries : (Finset Bytes → List Bytes) → Value → Operation (List α))
    (name : α → Bytes) (call : ScanCall) : List Bytes :=
  match call.db.visible call.env (call.dbindex, call.argv.getD 1 []) with
  | none => []
  | some value =>
      match entries call.env.order value with
      | .ok all => all.map name
      | .error _ => []

end ScanCall

namespace ScanCommand

def handle : ScanCommand → Arguments → Nat → Reader Response
  | scan => Command.scan
  | sscan => Command.sscan
  | hscan => Command.hscan
  | zscan => Command.zscan

/-- Where the cursor stands among the arguments. -/
def cursorIndex : ScanCommand → Nat
  | scan => 1
  | _ => 2

/-- The names of the elements that a reply shows. -/
def names : ScanCommand → List Bytes → List Bytes
  | scan => id
  | sscan => id
  | hscan => evens
  | zscan => evens

/-- The collection, as the call lists it. -/
def listed : ScanCommand → ScanCall → List Bytes
  | scan, call => call.env.order (call.db.data call.dbindex).keys
  | sscan, call => call.keyNames setEntries id
  | hscan, call => call.keyNames hashPairs Prod.fst
  | zscan, call => call.keyNames sortedEntries SortedSetMember.s

def options (command : ScanCommand) (call : ScanCall) : ScanOptions :=
  ((scanOptions (call.argv.drop (command.cursorIndex + 1))
    {}).toOption).getD {}

end ScanCommand

/-- The element matches the pattern, if there is one. -/
def matchesPattern (options : ScanOptions) (name : Bytes) : Bool :=
  match options.pattern with
  | none => true
  | some pattern => globMatch pattern name false == some true

/-! ## The options -/

/-- A count that COUNT accepts, or the default. -/
def ValidCount (options : ScanOptions) : Prop :=
  0 < options.count ∧ (options.count : Int) ≤ i64Max

omit [Platform] in
theorem scanOptions_count
    {arguments : List Bytes} {options result : ScanOptions}
    (read : scanOptions arguments options = .ok result)
    (valid : ValidCount options) : ValidCount result := by
  fun_induction scanOptions arguments options with
  | case1 options =>
      cases read
      exact valid
  | case2 options option utf8 name isMatch pattern rest ih =>
      exact ih read valid
  | case3 => cases read
  | case4 options option utf8 name notMatch isCount count rest ih =>
      simp only [bind, Except.bind] at read
      split at read
      · cases read
      · rename_i number numeric
        split at read
        · cases read
        · rename_i accepted
          refine ih number read ?_
          have fits : inI64 number = true := by
            unfold numberOf tryValidate at numeric
            split at numeric
            · rename_i parsed
              cases numeric
              exact Arguments.getI64_fits parsed
            · cases numeric
          unfold inI64 at fits
          simp only [Bool.and_eq_true, decide_eq_true_eq] at fits
          unfold validate at accepted
          split at accepted
          · rename_i natural
            simp only [decide_eq_true_eq] at natural
            unfold ValidCount
            dsimp only
            split
            · decide
            · omega
          · cases accepted
  | case5 => cases read
  | case6 => cases read
  | case7 => cases read

namespace ScanCommand

theorem options_count (command : ScanCommand) (call : ScanCall) :
    ValidCount (command.options call) := by
  unfold options
  cases read : scanOptions (call.argv.drop (command.cursorIndex + 1)) {} with
  | ok result =>
      apply scanOptions_count read
      exact ⟨by decide, by decide⟩
  | error reply =>
      have count : (({} : ScanOptions)).count = 10 := rfl
      show ValidCount {}
      unfold ValidCount
      rw [count]
      decide

/-- What a call looks at. -/
def page (command : ScanCommand) (call : ScanCall) : Page Bytes where
  listed := command.listed call
  count := (command.options call).count
  keep := matchesPattern (command.options call)
  positive := (command.options_count call).1

end ScanCommand

/-! ## The entries between two cursors -/

omit [Platform] in
theorem kept_of_matched
    {α : Type} {name : α → Bytes} {options : ScanOptions} {pattern : Bytes}
    (isPattern : options.pattern = some pattern) {window : List α}
    {keep : List Bool}
    (matched : (window.mapM fun entry =>
      globMatch pattern (name entry) false) = some keep) :
    ((window.zip keep).filter Prod.snd).map Prod.fst =
      window.filter fun entry => matchesPattern options (name entry) := by
  induction window generalizing keep with
  | nil =>
      cases matched
      rfl
  | cons entry rest ih =>
      simp only [List.mapM_cons, Option.bind_eq_bind,
        Option.bind_eq_some_iff, Option.pure_def, Option.some.injEq]
        at matched
      obtain ⟨first, firstMatched, others, restMatched, rfl⟩ := matched
      have rest := ih restMatched
      have isFirst : matchesPattern options (name entry) = first := by
        unfold matchesPattern
        rw [isPattern]
        simp [firstMatched]
      rw [List.zip_cons_cons, List.filter_cons, List.filter_cons, isFirst]
      cases first with
      | true => simp [rest]
      | false => simp [rest]

/-- The next cursor and the names of what is found are those of a page. -/
theorem scanEntries_page
    {α : Type} {name : α → Bytes} {options : ScanOptions} {cursor : Nat}
    {entries found : List α} {next : Nat} {page : Page Bytes}
    (valid : ValidCount options) (fits : (cursor : Int) ≤ i64Max)
    (listed : page.listed = entries.map name)
    (count : page.count = options.count)
    (keep : page.keep = matchesPattern options)
    (scanned : scanEntries name options cursor entries =
      some (next, found)) :
    next = page.next cursor ∧ found.map name = page.found cursor := by
  have isFound : page.found cursor =
      (((entries.drop cursor).take options.count).filter fun entry =>
        matchesPattern options (name entry)).map name := by
    unfold Page.found Page.window
    rw [listed, count, keep, ← List.map_drop, ← List.map_take,
      List.filter_map]
    rfl
  unfold scanEntries at scanned
  dsimp only at scanned
  split at scanned
  · rename_i past
    cases scanned
    constructor
    · rw [Page.next, listed, List.length_map, if_pos (by omega)]
    · rw [isFound, List.drop_eq_nil_of_le past]
      simp
  · rename_i inside
    simp only [Option.bind_eq_bind] at scanned
    obtain ⟨sum, summed, scanned⟩ := Option.bind_eq_some_iff.mp scanned
    have isSum : sum = cursor + options.count := by
      have bound := (usize_spec summed).2 (by omega) (by
        have most := valid.2
        unfold i64Max at fits most
        unfold usizeMax
        push_cast
        omega)
      omega
    have window : (entries.take (min sum entries.length)).drop cursor =
        (entries.drop cursor).take options.count := by
      rw [← List.take_take, List.take_length, List.drop_take]
      congr 1
      omega
    rw [window] at scanned
    have cursors : (if entries.length ≤ min sum entries.length then 0
        else min sum entries.length) = page.next cursor := by
      rw [Page.next, listed, List.length_map, count]
      split
      · rw [if_pos (by omega)]
      · rw [if_neg (by omega)]
        omega
    rw [cursors] at scanned
    split at scanned
    · rename_i anything
      cases scanned
      refine ⟨rfl, ?_⟩
      rw [isFound]
      congr 1
      symm
      apply List.filter_eq_self.mpr
      intro entry _
      unfold matchesPattern
      rw [anything]
    · rename_i pattern isPattern
      obtain ⟨kept, matched, scanned⟩ :=
        Option.bind_eq_some_iff.mp scanned
      cases scanned
      refine ⟨rfl, ?_⟩
      rw [isFound, kept_of_matched isPattern matched]

/-! ## What a call replies -/

omit [Platform] in
/-- A reply tells the next cursor and what was found. -/
theorem scanReply_injective {next next' : Nat} {shown shown' : List Bytes}
    (same : scanReply next shown = scanReply next' shown') :
    next = next' ∧ shown = shown' := by
  unfold scanReply at same
  simp only [Response.array.injEq, List.cons.injEq, Response.data.injEq,
    and_true] at same
  obtain ⟨cursors, entries⟩ := same
  refine ⟨natToString_injective cursors, ?_⟩
  exact List.map_injective_iff.mpr (fun _ _ => Response.data.inj) entries

omit [Platform] in
theorem evens_flatMap
    {α : Type} (first second : α → Bytes) (entries : List α) :
    evens (entries.flatMap fun entry => [first entry, second entry]) =
      entries.map first := by
  induction entries with
  | nil => rfl
  | cons entry rest ih =>
      rw [List.flatMap_cons, List.map_cons, ← ih]
      rfl

namespace ScanCommand

/-- A call with a cursor gets a reply with the next cursor and some
elements. -/
structure Replies (command : ScanCommand) (call : ScanCall)
    (cursor next : Nat) (shown : List Bytes) : Prop where
  cursor : call.argv.getI64 command.cursorIndex = .ok (cursor : Int)
  reply : ((command.handle call.argv call.dbindex).lift readInclusion).run
    (machine call.env) call.db = some (.ok (scanReply next shown), call.db)

/-- What a reply says, if it is one of a page. -/
def Pages (command : ScanCommand) (call : ScanCall)
    (result : Except Response Response) : Prop :=
  ∀ cursor : Nat, call.argv.getI64 command.cursorIndex = .ok (cursor : Int) →
    ∀ next shown, result = .ok (scanReply next shown) →
      next = (command.page call).next cursor ∧
        command.names shown = (command.page call).found cursor

theorem pages_error (command : ScanCommand) (call : ScanCall)
    (reply : Response) : command.Pages call (.error reply) := by
  intro cursor _ next shown same
  cases same

omit [Platform] in
/-- The cursor that a handler reads is the one of the call. -/
theorem cursor_toNat
    {argv : Arguments} {pos cursor : Nat} {number : Int}
    (read : argv.getI64 pos = .ok number)
    (named : argv.getI64 pos = .ok (cursor : Int)) :
    number.toNat = cursor ∧ (cursor : Int) ≤ i64Max := by
  cases read.symm.trans named
  have fits := Arguments.getI64_fits named
  unfold inI64 at fits
  simp only [Bool.and_eq_true, decide_eq_true_eq] at fits
  exact ⟨rfl, fits.2⟩

theorem scan_pages (call : ScanCall) :
    Ensures call.env ((Command.scan call.argv call.dbindex).lift
      readInclusion) (fun result _ => Pages .scan call result) call.db := by
  unfold Command.scan
  refine ensures_lift (fun _ => pages_error _ _ _) ?_
  intro _ _
  refine ensures_lift_ofExcept (fun _ => pages_error _ _ _) ?_
  intro number cursorRead
  refine ensures_lift (fun _ => pages_error _ _ _) ?_
  intro _ _
  refine ensures_lift_ofExcept (fun _ => pages_error _ _ _) ?_
  intro options optionsRead
  refine ensures_lift_read (.iterDb call.dbindex) ?_
  intro keys listed
  refine ensures_lift_orPanic ?_
  rintro ⟨next, found⟩ scanned
  refine Program.ensures_pure ?_
  intro cursor named next' shown same
  obtain ⟨rfl, rfl⟩ := scanReply_injective (Except.ok.inj same)
  obtain ⟨isCursor, fits⟩ :=
    cursor_toNat (tryValidate_eq_ok cursorRead) named
  rw [isCursor] at scanned
  have isOptions : ScanCommand.scan.options call = options := by
    unfold ScanCommand.options
    have read : scanOptions (call.argv.drop (ScanCommand.scan.cursorIndex
      + 1)) {} = .ok options := optionsRead
    rw [read]
    rfl
  cases (checked_eq_some.mp listed).2
  have isListed : (ScanCommand.scan.page call).listed =
      (call.env.order (call.db.data call.dbindex).keys).map id := by
    rw [List.map_id]
    rfl
  have pages := scanEntries_page
    (isOptions ▸ ScanCommand.scan.options_count call) fits isListed
    (congrArg ScanOptions.count isOptions)
    (congrArg matchesPattern isOptions) scanned
  rw [List.map_id] at pages
  exact pages

/-- The collection of a key, when the key holds one. -/
theorem keyNames_present
    {α : Type} {call : ScanCall}
    {entries : (Finset Bytes → List Bytes) → Value → Operation (List α)}
    {name : α → Bytes} {value : Value} {all : List α}
    (held : call.db.visible call.env (call.dbindex, call.argv.getD 1 []) =
      some value)
    (listed : entries call.env.order value = .ok all) :
    call.keyNames entries name = all.map name := by
  unfold ScanCall.keyNames
  rw [held]
  dsimp only
  rw [listed]

/-- Every command that scans a key replies with a page of its collection. -/
theorem scanKey_pages
    {α : Type} {command : ScanCommand} (call : ScanCall)
    {entries : (Finset Bytes → List Bytes) → Value → Operation (List α)}
    {name : α → Bytes} {entry : α → List Bytes}
    (isIndex : command.cursorIndex = 2)
    (isListed : command.listed call = call.keyNames entries name)
    (named : ∀ found : List α,
      command.names (found.flatMap entry) = found.map name) :
    Ensures call.env ((scanKey entries name entry call.argv
      call.dbindex).lift readInclusion)
      (fun result _ => command.Pages call result) call.db := by
  unfold scanKey
  refine ensures_lift (fun _ => pages_error _ _ _) ?_
  intro _ _
  refine ensures_lift_ofExcept (fun _ => pages_error _ _ _) ?_
  intro key keyRead
  refine ensures_lift_ofExcept (fun _ => pages_error _ _ _) ?_
  intro number cursorRead
  refine ensures_lift (fun _ => pages_error _ _ _) ?_
  intro _ _
  refine ensures_lift_ofExcept (fun _ => pages_error _ _ _) ?_
  intro options optionsRead
  have isOptions : command.options call = options := by
    unfold ScanCommand.options
    rw [isIndex, optionsRead]
    rfl
  have isKey : call.argv.getD 1 [] = key := by
    rw [List.getD_eq_getElem?_getD,
      getVec_eq_ok (tryValidate_eq_ok keyRead)]
    rfl
  refine ensures_lift_read (.get call.dbindex key) ?_
  intro stored got
  obtain ⟨-, answered⟩ := checked_eq_some.mp got
  have held : call.db.visible call.env (call.dbindex, key) = stored :=
    Option.some.inj answered
  cases stored with
  | none =>
      refine Program.ensures_pure ?_
      intro cursor _ next shown same
      obtain ⟨rfl, rfl⟩ := scanReply_injective (Except.ok.inj same)
      have empty : (command.page call).listed = [] := by
        show command.listed call = []
        rw [isListed, ScanCall.keyNames, isKey, held]
      constructor
      · rw [Page.next, empty, if_pos (by simp)]
      · rw [Page.found, Page.window, empty]
        have none := named []
        simpa using none
  | some value =>
      dsimp only
      refine ensures_lift_read .order ?_
      intro order ordered
      cases ordered
      cases listing : entries call.env.order value with
      | error error =>
          refine Program.ensures_pure ?_
          intro cursor _ next shown same
          cases same
      | ok all =>
          dsimp only
          refine ensures_lift_orPanic ?_
          rintro ⟨next, found⟩ scanned
          refine Program.ensures_pure ?_
          intro cursor index next' shown same
          obtain ⟨rfl, rfl⟩ := scanReply_injective (Except.ok.inj same)
          rw [isIndex] at index
          obtain ⟨isCursor, fits⟩ :=
            cursor_toNat (tryValidate_eq_ok cursorRead) index
          rw [isCursor] at scanned
          rw [named]
          have lists : (command.page call).listed = all.map name := by
            show command.listed call = all.map name
            rw [isListed]
            refine keyNames_present ?_ listing
            rw [isKey, held]
          exact scanEntries_page (isOptions ▸ command.options_count call)
            fits lists (congrArg ScanOptions.count isOptions)
            (congrArg matchesPattern isOptions) scanned

/-- A page is what every reply shows. -/
theorem handle_pages (command : ScanCommand) (call : ScanCall) :
    Ensures call.env ((command.handle call.argv call.dbindex).lift
      readInclusion) (fun result _ => command.Pages call result) call.db := by
  cases command with
  | scan => exact scan_pages call
  | sscan =>
      refine scanKey_pages call rfl rfl ?_
      intro found
      simp [names]
  | hscan =>
      refine scanKey_pages call rfl rfl ?_
      intro found
      exact evens_flatMap Prod.fst Prod.snd found
  | zscan =>
      refine scanKey_pages call rfl rfl ?_
      intro found
      exact evens_flatMap SortedSetMember.s
        (fun member => Platform.f64ToString member.f) found

theorem Replies.page
    {command : ScanCommand} {call : ScanCall} {cursor next : Nat}
    {shown : List Bytes} (replies : command.Replies call cursor next shown) :
    next = (command.page call).next cursor ∧
      command.names shown = (command.page call).found cursor :=
  command.handle_pages call _ _ replies.reply cursor replies.cursor next
    shown rfl

/-- Every element of the collection has its own name.  The members of a sorted
set have, unless a score that is not a number spoiled it. -/
def Distinct (call : ScanCall) : Prop :=
  ∀ zset, call.db.visible call.env (call.dbindex, call.argv.getD 1 []) =
    some (.sortedSet zset) → zset.Sound

/-! ## Iterations -/

/-- Calls that each start at the cursor that the one before replied with, up to
the first that replies zero; what they return together. -/
inductive Scans (command : ScanCommand) :
    Nat → List ScanCall → List Bytes → Nat → Prop where
  | once {call : ScanCall} {cursor next : Nat} {shown : List Bytes}
      (replies : command.Replies call cursor next shown) :
      Scans command cursor [call] (command.names shown) next
  | more {call : ScanCall} {cursor next last : Nat} {calls : List ScanCall}
      {shown others : List Bytes}
      (replies : command.Replies call cursor next shown)
      (continues : next ≠ 0)
      (rest : Scans command next calls others last) :
      Scans command cursor (call :: calls) (command.names shown ++ others)
        last

theorem Scans.pages
    {command : ScanCommand} {cursor last : Nat} {calls : List ScanCall}
    {elements : List Bytes}
    (scans : command.Scans cursor calls elements last) :
    Page.Iterates cursor (calls.map command.page) last ∧
      elements = Page.returned cursor (calls.map command.page) := by
  induction scans with
  | once replies =>
      obtain ⟨rfl, found⟩ := replies.page
      constructor
      · exact .once _ _
      · simp [Page.returned, found]
  | more replies continues _ ih =>
      obtain ⟨rfl, found⟩ := replies.page
      constructor
      · exact .more continues ih.1
      · rw [found, ih.2]
        rfl

theorem keyNames_nodup
    {α : Type} (call : ScanCall)
    {entries : (Finset Bytes → List Bytes) → Value → Operation (List α)}
    {name : α → Bytes}
    (distinct : ∀ value all,
      call.db.visible call.env (call.dbindex, call.argv.getD 1 []) =
        some value →
      entries call.env.order value = .ok all → (all.map name).Nodup) :
    (call.keyNames entries name).Nodup := by
  unfold ScanCall.keyNames
  split
  · exact List.nodup_nil
  · rename_i value held
    split
    · rename_i all listed
      exact distinct value all held listed
    · exact List.nodup_nil

/-- A collection is listed without repetitions. -/
theorem listed_nodup
    (command : ScanCommand) {call : ScanCall} (distinct : Distinct call) :
    (command.listed call).Nodup := by
  cases command with
  | scan => exact call.env.order_nodup _
  | sscan =>
      apply keyNames_nodup
      intro value all _ listed
      unfold setEntries at listed
      cases members : value.smembers with
      | error error =>
          rw [members] at listed
          cases listed
      | ok keys =>
          rw [members] at listed
          cases listed
          rw [List.map_id]
          exact call.env.order_nodup _
  | hscan =>
      apply keyNames_nodup
      intro value all _ listed
      unfold hashPairs at listed
      cases fields : value.hgetall with
      | error error =>
          rw [fields] at listed
          cases listed
      | ok map =>
          rw [fields] at listed
          cases listed
          exact entriesOf_nodup (call.env.order_nodup _)
  | zscan =>
      apply keyNames_nodup
      intro value all held listed
      unfold sortedEntries at listed
      split at listed
      · cases listed
        exact List.nodup_nil
      · rename_i zset
        cases listed
        exact (distinct zset held).once
      · cases listed

/-- An iteration that runs from zero to zero returns every element that is
there, and matches, in all of its calls, as long as no change between two calls
moves it in front of the cursor.  Without changes it returns every element
once, and there is an end to it. -/
theorem scan_guarantee
    (command : ScanCommand) (calls : List ScanCall) (elements : List Bytes)
    (last : Nat) (scans : command.Scans 0 calls elements last) :
    (last = 0 → ∀ element,
      (∀ call ∈ calls, element ∈ command.listed call ∧
        matchesPattern (command.options call) element = true) →
      Page.Undisturbed element 0 (calls.map command.page) →
      element ∈ elements) ∧
    (∀ listed keep, Page.Unchanged listed keep (calls.map command.page) →
      (last = 0 → elements = listed.filter keep) ∧
      (last ≠ 0 → calls.length < listed.length)) ∧
    ∀ call ∈ calls, Distinct call → (command.listed call).Nodup := by
  obtain ⟨iterates, isReturned⟩ := scans.pages
  refine ⟨?_, ?_, ?_⟩
  · intro finished element present undisturbed
    subst finished
    rw [isReturned]
    refine Page.mem_returned iterates ?_ ?_ undisturbed
    · intro page first
      have among := List.mem_of_mem_head? first
      obtain ⟨call, member, rfl⟩ := List.mem_map.mp among
      exact (present call member).1
    · intro page among
      obtain ⟨call, member, rfl⟩ := List.mem_map.mp among
      exact (present call member).2
  · intro listed keep unchanged
    constructor
    · intro finished
      subst finished
      rw [isReturned, Page.returned_unchanged iterates unchanged]
      rfl
    · intro continues
      have advanced := Page.iterates_advances iterates unchanged continues
      rw [List.length_map] at advanced
      omega
  · intro call _ distinct
    exact command.listed_nodup distinct

/-- `ZSCAN k cursor COUNT count`. -/
noncomputable def zscanCall (cursor count : String) (db : Database) :
    ScanCall :=
  ⟨.still 0, db, 0,
    [text "ZSCAN", text "k", text cursor, text "COUNT", text count]⟩

/-- What a call replies, where it replies a cursor and elements. -/
def replied (command : ScanCommand) (call : ScanCall) :
    Option (Except Response Response) :=
  (((command.handle call.argv call.dbindex).lift readInclusion).run
    (machine call.env) call.db).map Prod.fst

theorem replies_of_replied
    {command : ScanCommand} {call : ScanCall} {cursor next : Nat}
    {shown : List Bytes}
    (named : call.argv.getI64 command.cursorIndex = .ok (cursor : Int))
    (answer : command.replied call = some (.ok (scanReply next shown))) :
    command.Replies call cursor next shown := by
  obtain ⟨⟨result, after⟩, ran, same⟩ := Option.map_eq_some_iff.mp answer
  cases lift_unchanged _ ran
  cases same
  exact ⟨named, ran⟩

end ScanCommand

end Command

end

section

attribute [local instance] Platform.integral

namespace Command.ScanCommand

/-- Between the two calls ZREM removes the member in front of the cursor, so
the second call starts one member late. -/
theorem zscan_misses :
    ∃ added removed elements,
      (Command.zadd [text "ZADD", text "k", text "1", text "a", text "2",
        text "b", text "3", text "c"] 0).run (machine (.still 0))
          (.new {} none) = some (.ok (.integer 3), added) ∧
      (Command.zrem [text "ZREM", text "k", text "a"] 0).run
        (machine (.still 0)) added = some (.ok (.integer 1), removed) ∧
      zscan.Scans 0 [zscanCall "0" "1" added, zscanCall "1" "1" removed]
        elements 0 ∧
      (∀ call ∈ [zscanCall "0" "1" added, zscanCall "1" "1" removed],
        text "b" ∈ zscan.listed call ∧
          matchesPattern (zscan.options call) (text "b") = true) ∧
      text "b" ∉ elements := by
  have facts : ((Command.zadd [text "ZADD", text "k", text "1", text "a",
      text "2", text "b", text "3", text "c"] 0).run (machine (.still 0))
        (.new {} none)).bind (fun added =>
          ((Command.zrem [text "ZREM", text "k", text "a"] 0).run
            (machine (.still 0)) added.2).map fun removed =>
              (added.1, removed.1,
                zscan.replied (zscanCall "0" "1" added.2),
                zscan.replied (zscanCall "1" "1" removed.2),
                (zscan.listed (zscanCall "0" "1" added.2)).contains (text "b"),
                (zscan.listed (zscanCall "1" "1" removed.2)).contains
                  (text "b"))) =
        some (.ok (.integer 3), .ok (.integer 1),
          some (.ok (scanReply 1 [text "a", text "1"])),
          some (.ok (scanReply 0 [text "c", text "3"])), true, true) := by
    rfl
  obtain ⟨⟨first, added⟩, adds, facts⟩ := Option.bind_eq_some_iff.mp facts
  obtain ⟨⟨second, removed⟩, removes, facts⟩ :=
    Option.map_eq_some_iff.mp facts
  simp only [Prod.mk.injEq, List.contains_iff_mem] at facts
  obtain ⟨rfl, rfl, firstCall, secondCall, before, after⟩ := facts
  refine ⟨added, removed, _, adds, removes,
    .more (replies_of_replied rfl firstCall) (by decide)
      (.once (replies_of_replied rfl secondCall)), ?_, by decide⟩
  intro call member
  rcases List.mem_cons.mp member with rfl | member
  · exact ⟨before, rfl⟩
  · cases List.mem_singleton.mp member
    exact ⟨after, rfl⟩

/-- Without the removal the second call starts at that member. -/
theorem zscan_returns :
    ∃ added elements,
      zscan.Scans 0 [zscanCall "0" "1" added, zscanCall "1" "5" added]
        elements 0 ∧
      text "b" ∈ elements := by
  have facts : ((Command.zadd [text "ZADD", text "k", text "1", text "a",
      text "2", text "b", text "3", text "c"] 0).run (machine (.still 0))
        (.new {} none)).map (fun added =>
          (zscan.replied (zscanCall "0" "1" added.2),
            zscan.replied (zscanCall "1" "5" added.2),
            (zscan.listed (zscanCall "0" "1" added.2)).contains
              (text "b"))) =
        some (some (.ok (scanReply 1 [text "a", text "1"])),
          some (.ok (scanReply 0 [text "b", text "2", text "c", text "3"])),
          true) := by
    rfl
  obtain ⟨⟨_, added⟩, -, facts⟩ := Option.map_eq_some_iff.mp facts
  simp only [Prod.mk.injEq, List.contains_iff_mem] at facts
  obtain ⟨firstCall, secondCall, present⟩ := facts
  have scans : zscan.Scans 0 [zscanCall "0" "1" added,
      zscanCall "1" "5" added] _ 0 :=
    .more (replies_of_replied rfl firstCall) (by decide)
      (.once (replies_of_replied rfl secondCall))
  refine ⟨added, _, scans, ?_⟩
  refine (scan_guarantee zscan _ _ 0 scans).1 rfl (text "b") ?_ ?_
  · intro call member
    rcases List.mem_cons.mp member with rfl | member
    · exact ⟨present, rfl⟩
    · cases List.mem_singleton.mp member
      exact ⟨present, rfl⟩
  · exact ⟨id, trivial⟩

end Command.ScanCommand

end

end RedVector
