import RedVector.Command.Renaming
import RedVector.Command.Replies

/-!
# Quoted text

Some errors quote the client: the word of a command, the arguments behind it,
or an unknown name.  The reply to a command reads back if and only if every
text that it quotes is one line.
-/

namespace RedVector

open Util Effect

section

variable [Platform]

namespace Command

/-! ## What is quoted -/

/-- The subcommand that SLOWLOG does not know. -/
def unknownSubcommand (argv : Arguments) : Option Bytes :=
  match argv.getStr 1 with
  | .error _ => none
  | .ok subcommand =>
      if lowercase subcommand ∈ [text "get", text "len", text "reset"] then
        none
      else some subcommand

/-- The parameter that CONFIG SET does not know. -/
def unknownParameter (argv : Arguments) : Option Bytes :=
  match argv.getStr 1, argv.getStr 2, argv.getStr 3 with
  | .ok subcommand, .ok param, .ok _ =>
      if argv.length = 4 ∧ lowercase subcommand = text "set" ∧
          settings.all (fun entry => text entry.1 ≠ lowercase param) then
        some param
      else none
  | _, _, _ => none

/-- The argument that an error of a handler quotes. -/
def quotedArgument (known : CommandName) (argv : Arguments) :
    Option Bytes :=
  match known with
  | .slowlog => unknownSubcommand argv
  | .config => unknownParameter argv
  | _ => none

/-- The texts that the reply to a command may quote, apart from what EXEC
executes. -/
def quoted (command : ParsedCommand) (db : Database) (client : Client) :
    List Bytes :=
  let argv := command.arguments
  let word := argv.headD []
  match commandName db argv with
  | .error _ =>
      if isUtf8 word then word :: ((argv.take 4).drop 1).filter isUtf8 else []
  | .ok name =>
      let known := CommandName.ofBytes name
      match route known command db client with
      | .answered _ _ => []
      | .exec _ => []
      | .dispatched _ =>
          match known.bind fun known =>
              (Handler.ofName known).map fun _ => quotedArgument known argv with
          | some argument => word :: argument.toList
          | none => if (text "ft.").isPrefixOf name then [] else [name]

/-- Every text that the reply to a command may quote is one line. -/
def QuotesLines : Condition :=
  fun _ command db client =>
    ∀ quotation ∈ quoted command db client, isLine quotation = true

/-- The words for the commands that the configuration renames are lines. -/
def RenamesLines (config : Config) : Prop :=
  ∀ word ∈ config.renameCommands.keys, isLine word = true

omit [Platform] in
theorem fail_framed {message : String} (line : isLine (text message) = true) :
    (Response.fail message).framed = true :=
  line

/-! ## Server commands -/

section Server

variable {argv : Arguments}

omit [Platform] in
theorem framed_replyOf_bind
    {α : Type} {check : Except Response α}
    {next : α → Except Response Response} (plain : Plain check)
    (succeeds : ∀ value, check = .ok value →
      (replyOf (next value)).framed = true) :
    (replyOf (check >>= next)).framed = true := by
  cases check with
  | ok value => exact succeeds value rfl
  | error reply => exact plain reply rfl

omit [Platform] in
theorem plain_exact (line : isLine (argv.headD []) = true)
    (expected : Nat) : Plain (validateArgumentsExact argv expected) := by
  unfold validateArgumentsExact
  split
  · exact plain_ok ()
  · exact (plain_error _).mpr ((framed_wrongNumber argv).mpr line)

omit [Platform] in
theorem plain_gte (line : isLine (argv.headD []) = true)
    (expected : Nat) : Plain (validateArgumentsGte argv expected) := by
  unfold validateArgumentsGte
  split
  · exact (plain_error _).mpr ((framed_wrongNumber argv).mpr line)
  · exact plain_ok ()

omit [Platform] in
theorem plain_lte (line : isLine (argv.headD []) = true)
    (expected : Nat) : Plain (validateArgumentsLte argv expected) := by
  unfold validateArgumentsLte
  split
  · exact (plain_error _).mpr ((framed_wrongNumber argv).mpr line)
  · exact plain_ok ()

omit [Platform] in
/-- A line of the source for an argument that cannot be read. -/
theorem plain_read
    {ε α : Type} {message : String} (line : isLine (text message) = true)
    (read : Except ε α) : Plain (tryValidate read message) :=
  (plain_valid read message).mpr fun _ _ => line

omit [Platform] in
theorem framed_datas (elements : List Bytes) :
    (Response.array (elements.map .data)).framed = true := by
  simp

omit [Platform] in
theorem echo_framed (line : isLine (argv.headD []) = true) :
    (echo argv).framed = true := by
  apply framed_replyOf_bind (plain_exact line 2)
  intro _ _
  apply framed_replyOf_bind (plain_read (by decide) _)
  intro value _
  exact Response.framed_data value

omit [Platform] in
theorem slaveof_framed (line : isLine (argv.headD []) = true) :
    (slaveof argv).framed = true := by
  apply framed_replyOf_bind (plain_exact line 3)
  intro _ _
  apply framed_replyOf_bind (plain_read (by decide) _)
  intro _ _
  apply framed_replyOf_bind (plain_read (by decide) _)
  intro _ _
  exact Response.framed_ok

omit [Platform] in
theorem waitCmd_framed (line : isLine (argv.headD []) = true) :
    (waitCmd argv).framed = true := by
  apply framed_replyOf_bind (plain_exact line 3)
  intro _ _
  apply framed_replyOf_bind (plain_read (by decide) _)
  intro numreplicas _
  apply framed_replyOf_bind (plain_read (by decide) _)
  intro _ _
  split
  · exact fail_framed (by decide)
  · exact Response.framed_data _

theorem publish_framed
    {env : Env} {db after : Database} {reply : Response}
    (line : isLine (argv.headD []) = true)
    (published : publish env argv db = some (reply, after)) :
    reply.framed = true := by
  unfold publish at published
  split at published
  · rename_i refused
    cases published
    exact plain_exact line 3 _ refused
  · simp only [Option.bind_eq_bind, Option.bind_eq_some_iff] at published
    obtain ⟨⟨count, between⟩, -, published⟩ := published
    cases published
    exact Response.framed_integer count

theorem pubsub_framed
    {env : Env} {db : Database} {reply : Response}
    (line : isLine (argv.headD []) = true)
    (asked : pubsub env argv db = some reply) :
    reply.framed = true := by
  have subcommand : Plain (do
      validateArgumentsGte argv 2
      tryValidate (argv.getStr 1) "Invalid subcommand") :=
    (plain_bind _ _).mpr ⟨plain_gte line 2, fun _ _ =>
      plain_read (by decide) _⟩
  unfold pubsub at asked
  split at asked
  · rename_i refused
    cases asked
    exact subcommand _ refused
  dsimp only at asked
  split at asked
  · simp only [Option.bind_eq_bind, Option.bind_eq_some_iff] at asked
    obtain ⟨channels, -, asked⟩ := asked
    cases asked
    exact framed_datas channels
  split at asked
  · cases asked
    rw [Response.framed_array]
    intro response member
    simp only [List.mem_flatMap, List.mem_cons, List.not_mem_nil, or_false]
      at member
    obtain ⟨channel, -, rfl | rfl⟩ := member
    · exact Response.framed_data channel
    · exact Response.framed_integer _
  split at asked
  · cases asked
    apply framed_replyOf_bind (plain_exact line 2)
    intro _ _
    exact Response.framed_integer _
  · cases asked
    exact fail_framed (by decide)

theorem monitor_framed (line : isLine (argv.headD []) = true)
    (client : Nat) (db : Database) :
    (monitor argv client db).1.framed = true := by
  unfold monitor
  split
  · rename_i refused
    exact plain_exact line 1 _ refused
  · exact Response.framed_ok

theorem info_framed (line : isLine (argv.headD []) = true) (env : Env) :
    (info env argv).framed = true := by
  apply framed_replyOf_bind (plain_lte line 2)
  intro _ _
  split
  · exact Response.framed_data _
  · apply framed_replyOf_bind (plain_read (by decide) _)
    intro _ _
    exact Response.framed_data _

theorem save_framed (line : isLine (argv.headD []) = true) (env : Env)
    (db : Database) : (save env argv db).1.framed = true := by
  unfold save
  split
  · rename_i refused
    exact plain_exact line 1 _ refused
  · exact Response.framed_ok

omit [Platform] in
theorem acknowledge_framed
    {valid : Except Response Unit} {status : Response}
    (plain : Plain valid) (framed : status.framed = true) :
    (acknowledge valid status).framed = true := by
  apply framed_replyOf_bind plain
  intro _ _
  exact framed

omit [Platform] in
theorem slowlogEntry_framed (entry : SlowLogEntry) :
    (slowlogEntry entry).framed = true := by
  simp [slowlogEntry]

/-- SLOWLOG quotes a subcommand that it does not know, and nothing else. -/
theorem slowlog_framed (argv : Arguments) (db : Database) :
    (slowlog argv db).1.framed = true ↔
      ∀ argument ∈ unknownSubcommand argv, isLine argument = true := by
  have missing : isLine (text "Wrong number of parameters") = true := by
    decide
  have nothing : ∀ argument ∈ (none : Option Bytes),
      isLine argument = true := by
    intro argument member
    cases member
  rcases argv with _ | ⟨word, _ | ⟨subcommand, rest⟩⟩
  · exact iff_of_true missing nothing
  · exact iff_of_true missing nothing
  · have read : Arguments.getStr (word :: subcommand :: rest) 1 =
        if isUtf8 subcommand then .ok subcommand
        else .error .invalidArgument := rfl
    have checked : validate (2 ≤ (word :: subcommand :: rest).length)
        "Wrong number of parameters" = .ok () := by
      simp [validate]
    unfold slowlog unknownSubcommand
    rw [read, checked]
    cases isUtf8 subcommand with
    | false =>
        have invalid : isLine (text "Invalid subcommand") = true := by
          decide
        exact iff_of_true invalid nothing
    | true =>
        simp only [bind, Except.bind, if_true, tryValidate]
        by_cases get : lowercase subcommand = text "get"
        · apply iff_of_true
          · rw [if_pos get]
            split
            · rename_i refused
              have plain : Plain
                  (if 2 < (word :: subcommand :: rest).length then
                    some <$> tryValidate
                      (Arguments.getI64 (word :: subcommand :: rest) 2)
                      "Invalid count"
                  else pure none) :=
                plain_ite.mpr ⟨fun _ => (plain_map _ _).mpr
                  (plain_read (by decide) _), fun _ => plain_pure none⟩
              exact plain _ refused
            · rw [Response.framed_array]
              intro response member
              obtain ⟨entry, -, rfl⟩ := List.mem_map.mp member
              exact slowlogEntry_framed entry
          · simp [get]
        rw [if_neg get]
        by_cases len : lowercase subcommand = text "len"
        · simp [len]
        rw [if_neg len]
        by_cases reset : lowercase subcommand = text "reset"
        · simp [reset]
        rw [if_neg reset]
        have before :
            isLine (text "ERR Unknown SLOWLOG subcommand '") = true := by
          decide
        have behind : isLine (text "'") = true := by decide
        simp [get, len, reset, before, behind]

/-! ## CONFIG -/

omit [Platform] in
theorem configGet_framed (line : isLine (argv.headD []) = true)
    (config : Config) : (replyOf (configGet config argv)).framed = true := by
  apply framed_replyOf_bind (plain_exact line 3)
  intro _ _
  apply framed_replyOf_bind (plain_read (by decide) _)
  intro param _
  cases configParameter config (lowercase param) with
  | none => exact framed_datas []
  | some value => exact framed_datas [lowercase param, value]

section Settings

variable {param : String}

omit [Platform] in
theorem invalidSetting_framed (line : isLine (text param) = true) :
    (invalidSetting param).framed = true := by
  have before :
      isLine (text "ERR Invalid argument for CONFIG SET '") = true := by
    decide
  have behind : isLine (text "'") = true := by decide
  simp [invalidSetting, before, behind, line]

omit [Platform] in
theorem plain_booleanSetting (line : isLine (text param) = true)
    (value : Bytes) : Plain (booleanSetting param value) := by
  unfold booleanSetting
  simp [invalidSetting_framed line]

omit [Platform] in
theorem plain_wordSetting (line : isLine (text param) = true)
    (words : List String) (value : Bytes) :
    Plain (wordSetting words param value) := by
  unfold wordSetting
  simp [invalidSetting_framed line]

omit [Platform] in
theorem plain_positiveSetting (line : isLine (text param) = true)
    (limit : Nat) (value : Bytes) :
    Plain (positiveSetting limit param value) := by
  unfold positiveSetting
  split
  · exact plain_ok _
  · exact (plain_error _).mpr (invalidSetting_framed line)

omit [Platform] in
theorem plain_eventSetting (line : isLine (text param) = true)
    (value : Bytes) : Plain (eventSetting param value) := by
  unfold eventSetting
  simp [invalidSetting_framed line]

omit [Platform] in
theorem plain_memorySetting (line : isLine (text param) = true)
    (value : Bytes) : Plain (memorySetting param value) := by
  unfold memorySetting
  split
  · exact plain_ok _
  · exact plain_ok _
  · exact (plain_error _).mpr (invalidSetting_framed line)

omit [Platform] in
theorem plain_setting
    {α : Type} {read : String → Bytes → Except Response α}
    (plain : ∀ value, Plain (read param value))
    (update : Config → α → Config) (config : Config) (value : Bytes) :
    Plain ((setting param read update).2 config value) :=
  (plain_map _ _).mpr (plain value)

end Settings

omit [Platform] in
/-- No setting is refused with text of the client. -/
theorem settings_plain
    {entry : Setting} (member : entry ∈ settings) (config : Config)
    (value : Bytes) : Plain (entry.2 config value) := by
  simp only [settings, List.mem_cons, List.not_mem_nil, or_false] at member
  rcases member with rfl | rfl | rfl | rfl | rfl | rfl | rfl | rfl | rfl |
    rfl | rfl | rfl | rfl | rfl | rfl
  · exact plain_setting (plain_booleanSetting (by decide)) _ _ _
  · exact plain_setting (fun _ => plain_ok _) _ _ _
  · exact plain_setting (fun _ => plain_ok _) _ _ _
  · exact plain_setting (plain_memorySetting (by decide)) _ _ _
  · exact plain_setting (plain_wordSetting (by decide) _) _ _ _
  · exact plain_setting (plain_wordSetting (by decide) _) _ _ _
  · exact plain_setting (plain_positiveSetting (by decide) _) _ _ _
  · exact plain_setting (plain_booleanSetting (by decide)) _ _ _
  · exact plain_setting (plain_positiveSetting (by decide) _) _ _ _
  · exact plain_setting (plain_positiveSetting (by decide) _) _ _ _
  · exact plain_setting (plain_positiveSetting (by decide) _) _ _ _
  · exact plain_setting (plain_positiveSetting (by decide) _) _ _ _
  · exact plain_setting (plain_positiveSetting (by decide) _) _ _ _
  · exact plain_setting (plain_positiveSetting (by decide) _) _ _ _
  · exact plain_setting (plain_eventSetting (by decide)) _ _ _

omit [Platform] in
/-- CONFIG SET quotes a parameter that it does not know. -/
theorem plain_applySetting (config : Config) (param value : Bytes) :
    Plain (applySetting config param value) ↔
      (settings.all (fun entry => text entry.1 ≠ lowercase param) = true →
        isLine param = true) := by
  have before : isLine (text
      "ERR CONFIG SET failed (possibly unknown parameter '") = true := by
    decide
  have behind : isLine (text "')") = true := by decide
  unfold applySetting
  split
  · rename_i entry found
    have member := List.mem_of_find?_eq_some found
    have named := List.find?_some found
    apply iff_of_true (settings_plain member config value)
    intro unknown
    have other := List.all_eq_true.mp unknown entry member
    simp_all
  · rename_i found
    have unknown :
        settings.all (fun entry => text entry.1 ≠ lowercase param) = true := by
      simpa using found
    rw [imp_iff_right unknown, plain_error]
    simp [before, behind]

omit [Platform] in
theorem plain_configSet (line : isLine (argv.headD []) = true)
    (config : Config) :
    Plain (configSet config argv) ↔ ∀ param value, argv.length = 4 →
      argv.getStr 2 = .ok param → argv.getStr 3 = .ok value →
      settings.all (fun entry => text entry.1 ≠ lowercase param) = true →
        isLine param = true := by
  simp only [configSet, plain_bind, plain_applySetting]
  constructor
  · rintro ⟨-, plain⟩ param value four isParam isValue
    refine ((plain () ?_).2 param ?_).2 value ?_
    · exact if_pos four
    · rw [isParam, tryValidate]
    · rw [isValue, tryValidate]
  · intro lines
    refine ⟨plain_exact line 4, fun _ exact => ⟨plain_read (by decide) _,
      fun param isParam => ⟨plain_read (by decide) _,
        fun value isValue => ?_⟩⟩⟩
    apply lines param value
    · by_contra other
      rw [validateArgumentsExact, if_neg other] at exact
      cases exact
    · exact tryValidate_eq_ok isParam
    · exact tryValidate_eq_ok isValue

omit [Platform] in
theorem mem_unknownParameter (argv : Arguments) (argument : Bytes) :
    argument ∈ unknownParameter argv ↔ ∃ subcommand value,
      argv.getStr 1 = .ok subcommand ∧ lowercase subcommand = text "set" ∧
      argv.length = 4 ∧ argv.getStr 2 = .ok argument ∧
      argv.getStr 3 = .ok value ∧
      settings.all (fun entry => text entry.1 ≠ lowercase argument) =
        true := by
  unfold unknownParameter
  split
  · rename_i subcommand param value isSubcommand isParam isValue
    simp only [isSubcommand, isParam, isValue, Except.ok.injEq]
    constructor
    · intro member
      split at member
      · rename_i unknown
        cases member
        exact ⟨subcommand, value, rfl, unknown.2.1, unknown.1, rfl, rfl,
          unknown.2.2⟩
      · cases member
    · rintro ⟨_, _, rfl, set, four, rfl, rfl, unknown⟩
      rw [if_pos ⟨four, set, unknown⟩]
      rfl
  · rename_i others
    constructor
    · nofun
    · rintro ⟨subcommand, value, isSubcommand, -, -, isParam, isValue, -⟩
      exact absurd isValue (others _ _ _ isSubcommand isParam)

/-- CONFIG quotes a parameter that CONFIG SET does not know, and the word of
the command. -/
theorem config_framed (line : isLine (argv.headD []) = true)
    (db : Database) :
    (config argv db).1.framed = true ↔
      ∀ argument ∈ unknownParameter argv, isLine argument = true := by
  have plain : Plain (do
      validateArgumentsGte argv 2
      tryValidate (argv.getStr 1) "Invalid subcommand") :=
    (plain_bind _ _).mpr ⟨plain_gte line 2, fun _ _ =>
      plain_read (by decide) _⟩
  simp only [mem_unknownParameter]
  unfold config
  split
  · rename_i refused
    apply iff_of_true (plain _ refused)
    rintro argument ⟨subcommand, value, isSubcommand, -, four, -⟩
    have accepted : validateArgumentsGte argv 2 = .ok () :=
      if_neg (by omega)
    rw [accepted, isSubcommand] at refused
    cases refused
  · rename_i subcommand accepted
    have isSubcommand : argv.getStr 1 = .ok subcommand := by
      cases checked : validateArgumentsGte argv 2 with
      | error reply => 
          rw [checked] at accepted
          cases accepted
      | ok _ => 
          rw [checked] at accepted
          exact tryValidate_eq_ok accepted
    simp only [isSubcommand, Except.ok.injEq]
    by_cases get : lowercase subcommand = text "get"
    · rw [if_pos get]
      apply iff_of_true (configGet_framed line db.config)
      rintro argument ⟨_, _, rfl, set, -⟩
      rw [get] at set
      exact absurd set (by decide)
    rw [if_neg get]
    by_cases set : lowercase subcommand = text "set"
    · rw [if_pos set]
      refine Iff.trans ?_ ((plain_configSet line db.config).trans ?_)
      · cases configSet db.config argv with
        | ok config => exact iff_of_true Response.framed_ok (plain_ok _)
        | error reply => exact (plain_error reply).symm
      constructor
      · rintro lines argument ⟨_, value, -, -, four, isParam, isValue, unknown⟩
        exact lines argument value four isParam isValue unknown
      · intro lines param value four isParam isValue unknown
        exact lines param
          ⟨subcommand, value, rfl, set, four, isParam, isValue, unknown⟩
    · rw [if_neg set]
      apply iff_of_true
      · exact fail_framed (by decide)
      · rintro argument ⟨_, _, rfl, isSet, -⟩
        exact absurd isSet set

/-! ## COMMAND -/

omit [Platform] in
theorem commandInfo_framed (name : Bytes) (properties : CommandProperties) :
    (commandInfo name properties).framed = true := by
  unfold commandInfo
  simp only [Response.framed_array, List.forall_mem_cons,
    Response.framed_data, Response.framed_array, List.forall_mem_map]
  simp

omit [Platform] in
theorem commandKeys_framed (line : isLine (argv.headD []) = true) :
    (replyOf (commandKeys argv)).framed = true := by
  apply framed_replyOf_bind (plain_gte line 3)
  intro _ _
  apply framed_replyOf_bind (plain_read (by decide) _)
  intro name _
  dsimp only
  split
  · exact framed_datas []
  · exact framed_datas _

omit [Platform] in
theorem commandInfos_framed
    {names : List Bytes} {infos : List Response}
    (listed : commandInfos names = .ok infos) :
    ∀ info ∈ infos, info.framed = true := by
  induction names generalizing infos with
  | nil =>
      cases listed
      nofun
  | cons name rest ih =>
      unfold commandInfos at listed
      split at listed
      · cases others : commandInfos rest with
        | error reply =>
            rw [others] at listed
            cases listed
        | ok found =>
            rw [others] at listed
            cases listed
            rw [List.forall_mem_cons]
            exact ⟨commandInfo_framed name _, ih others⟩
      · cases listed

omit [Platform] in
theorem plain_commandInfos (names : List Bytes) :
    Plain (commandInfos names) := by
  have invalid : isLine (text "Invalid command") = true := by decide
  induction names with
  | nil => exact plain_ok []
  | cons name rest ih =>
      unfold commandInfos
      split
      · exact (plain_bind _ _).mpr ⟨ih, fun _ _ => plain_pure _⟩
      · exact (plain_error _).mpr invalid

omit [Platform] in
theorem commandCmd_framed (line : isLine (argv.headD []) = true) :
    (commandCmd argv).framed = true := by
  unfold commandCmd
  split
  · rw [Response.framed_array, List.forall_mem_map]
    intro name _
    exact commandInfo_framed _ _
  · apply framed_replyOf_bind (plain_read (by decide) _)
    intro subcommand _
    dsimp only
    split
    · exact Response.framed_data _
    split
    · exact commandKeys_framed line
    split
    · apply framed_replyOf_bind (plain_gte line 3)
      intro _ _
      apply framed_replyOf_bind (plain_commandInfos _)
      intro infos listed
      exact (Response.framed_array infos).mpr (commandInfos_framed listed)
    · exact fail_framed (by decide)

/-! ## Clients -/

omit [Platform] in
theorem ping_framed (line : isLine (argv.headD []) = true)
    (client : Client) : (ping argv client).framed = true := by
  unfold ping
  split
  · exact (framed_wrongNumber argv).mpr line
  split
  · exact framed_datas [text "pong", argv.getD 1 []]
  split
  · exact Response.framed_data _
  · exact fail_framed (by decide)

omit [Platform] in
theorem clientCmd_framed (line : isLine (argv.headD []) = true)
    (client : Client) : (clientCmd argv client).framed = true := by
  apply framed_replyOf_bind (plain_gte line 2)
  intro _ _
  apply framed_replyOf_bind (plain_read (by decide) _)
  intro subcommand _
  dsimp only
  split
  · exact Response.framed_data _
  split
  · exact Response.framed_nil
  split
  · apply framed_replyOf_bind (plain_exact line 3)
    intro _ _
    apply framed_replyOf_bind (plain_read (by decide) _)
    intro _ _
    exact Response.framed_ok
  split
  · exact fail_framed (by decide)
  split
  · exact fail_framed (by decide)
  split
  · exact fail_framed (by decide)
  · exact fail_framed (by decide)

end Server

end Command

/-! ## Handlers -/

namespace Handler

open Command

/-- The reply of a program that quotes nothing but the word. -/
theorem finished_framed
    {env : Env} {argv : Arguments} {program : Writer Answer} {db : Database}
    {client : Client} {outcome : Outcome} {reply : Response}
    {databases : Nat}
    (obeys : program.Obeys (writeContract databases) (QuotesAnswer argv))
    (atMost : db.config.databases ≤ databases)
    (line : isLine (argv.headD []) = true)
    (ran : (program.run (Database.machine env) db).map (finished client) =
      some outcome)
    (answered : outcome.answer = .ok reply) : reply.framed = true := by
  let holds : Database → Prop := fun db => db.config.databases ≤ databases
  have honest : ∀ op state answer after, holds state →
      WriteOp.Below databases op →
      (Database.machine env).step op state = some (answer, after) →
      WriteOp.Honest databases op answer ∧ holds after :=
    fun op state answer after held _ performed =>
      Database.machine_honest held performed
  obtain ⟨⟨result, after⟩, programRan, rfl⟩ := Option.map_eq_some_iff.mp ran
  have ends := ((obeys.sound honest (show holds db from atMost)).2 result
    after programRan).1
  cases result with
  | error refused =>
      cases answered
      exact ends line
  | ok answer =>
      subst answered
      exact ends line

omit [Platform] in
theorem quotes_answer
    {argv : Arguments} {result : Except Response Response}
    (quotes : Quotes argv result) : QuotesAnswer argv (result.map .ok) := by
  cases result with
  | ok reply => exact quotes
  | error reply => exact quotes

/-- The other server commands quote nothing but the word. -/
theorem server_framed
    {name : CommandName} (notSlowlog : name ≠ .slowlog)
    (notConfig : name ≠ .config)
    {handle : Env → Arguments → Nat → Database →
      Option (Response × Database)}
    (found : ofName name = some (server handle))
    {env : Env} {argv : Arguments} {id : Nat} {db after : Database}
    {reply : Response} (line : isLine (argv.headD []) = true)
    (handled : handle env argv id db = some (reply, after)) :
    reply.framed = true := by
  have same : ∀ {answer : Response × Database},
      some answer = some (reply, after) → answer.1 = reply :=
    fun equal => congrArg Prod.fst (Option.some.inj equal)
  cases name
  case slowlog => exact absurd rfl notSlowlog
  case config => exact absurd rfl notConfig
  case publish =>
    cases found
    exact publish_framed line handled
  case pubsub =>
    cases found
    obtain ⟨_, asked, answered⟩ := Option.map_eq_some_iff.mp handled
    cases answered
    exact pubsub_framed line asked
  case echo =>
    cases found
    exact same handled ▸ echo_framed line
  case time =>
    cases found
    exact same handled ▸ framed_datas [_, _]
  case role =>
    cases found
    rw [← same handled]
    rfl
  case slaveof =>
    cases found
    exact same handled ▸ slaveof_framed line
  case monitor =>
    cases found
    exact same handled ▸ monitor_framed line id db
  case info =>
    cases found
    exact same handled ▸ info_framed line env
  case save =>
    cases found
    exact same handled ▸ save_framed line env db
  case bgsave =>
    cases found
    exact same handled ▸ acknowledge_framed (plain_exact line 1) (by decide)
  case bgrewriteaof =>
    cases found
    exact same handled ▸ acknowledge_framed (plain_exact line 1) (by decide)
  case shutdown =>
    cases found
    exact same handled ▸
      acknowledge_framed (plain_lte line 2) Response.framed_ok
  case lastsave =>
    cases found
    exact same handled ▸
      acknowledge_framed (plain_exact line 1) (Response.framed_integer _)
  case command =>
    cases found
    exact same handled ▸ commandCmd_framed line
  case wait =>
    cases found
    exact same handled ▸ waitCmd_framed line
  all_goals cases found

/-- The commands that work on the client quote nothing but the word. -/
theorem session_framed
    {name : CommandName}
    {handle : Env → Arguments → Database → Client → Option Command.Session}
    (found : ofName name = some (session handle))
    {env : Env} {argv : Arguments} {db : Database} {client : Client}
    {reply : Response} {place : Place}
    (line : isLine (argv.headD []) = true)
    (handled : handle env argv db client = some (.ok reply, place)) :
    reply.framed = true := by
  have wrong : (Response.fail "Wrong number of parameters").framed = true := by
    decide
  have same : ∀ {session : Command.Session},
      some session = some (.ok reply, place) → session.1 = .ok reply :=
    fun equal => congrArg Prod.fst (Option.some.inj equal)
  cases name
  case ping =>
    cases found
    cases handled
    exact ping_framed line client
  case client =>
    cases found
    cases handled
    exact clientCmd_framed line client
  case watch =>
    cases found
    dsimp only [watch] at handled
    split at handled
    · obtain ⟨-, watched⟩ := Database.checked_eq_some.mp handled
      cases watched
      exact Response.framed_ok
    · cases handled
      exact wrong
  case unwatch =>
    cases found
    have answer := same handled
    unfold unwatch at answer
    split at answer
    · cases answer
      exact Response.framed_ok
    · cases answer
      exact wrong
  case subscribe =>
    cases found
    have answer := same handled
    unfold subscribe at answer
    split at answer
    · cases answer
    · cases answer
      exact wrong
  case psubscribe =>
    cases found
    have answer := same handled
    unfold psubscribe at answer
    split at answer
    · cases answer
    · cases answer
      exact wrong
  case unsubscribe =>
    cases found
    have answer := same handled
    unfold unsubscribe at answer
    dsimp only at answer
    split at answer
    · split at answer
      · cases answer
      · cases answer
    · cases answer
  case punsubscribe =>
    cases found
    have answer := same handled
    unfold punsubscribe at answer
    dsimp only at answer
    split at answer
    · split at answer
      · cases answer
      · cases answer
    · cases answer
  all_goals cases found

omit [Platform] in
theorem quotedArgument_other
    {name : CommandName} (notSlowlog : name ≠ .slowlog)
    (notConfig : name ≠ .config) (argv : Arguments) :
    quotedArgument name argv = none := by
  cases name
  case slowlog => exact absurd rfl notSlowlog
  case config => exact absurd rfl notConfig
  all_goals rfl

/-- Where the word is one line, the reply of a handler is framed if and only
if the argument is one line that it quotes. -/
theorem run_framed
    {name : CommandName} {handler : Handler}
    (found : ofName name = some handler) {env : Env} {argv : Arguments}
    {db : Database} {client : Client} {outcome : Outcome} {reply : Response}
    (line : isLine (argv.headD []) = true)
    (ran : handler.run env argv db client = some outcome)
    (answered : outcome.answer = .ok reply) :
    reply.framed = true ↔
      ∀ argument ∈ quotedArgument name argv, isLine argument = true := by
  by_cases isSlowlog : name = .slowlog
  · subst isSlowlog
    cases found
    cases ran
    cases answered
    exact slowlog_framed argv db
  by_cases isConfig : name = .config
  · subst isConfig
    cases found
    cases ran
    cases answered
    exact config_framed line db
  rw [quotedArgument_other isSlowlog isConfig]
  apply iff_of_true _ nofun
  let databases := max db.config.databases (client.dbindex + 1)
  have below : client.dbindex < databases := by omega
  have atMost : db.config.databases ≤ databases := Nat.le_max_left _ _
  have obeys := ofName_obeys name argv below
  rw [found] at obeys
  cases handler with
  | reader handle =>
      refine finished_framed ?_ atMost line ran answered
      apply (Program.obeys_map _ _ _).mpr
      exact ((obeys_lift_read _).mpr obeys).mono fun _ => quotes_answer
  | writer handle =>
      refine finished_framed ?_ atMost line ran answered
      apply (Program.obeys_map _ _ _).mpr
      exact obeys.mono fun _ => quotes_answer
  | blocking handle => exact finished_framed obeys atMost line ran answered
  | server handle =>
      simp only [run, Option.bind_eq_bind, Option.bind_eq_some_iff] at ran
      obtain ⟨⟨_, after⟩, handled, finished⟩ := ran
      cases finished
      cases answered
      exact server_framed isSlowlog isConfig found line handled
  | session handle =>
      simp only [run, Option.bind_eq_bind, Option.bind_eq_some_iff] at ran
      obtain ⟨⟨_, after, afterClient⟩, handled, finished⟩ := ran
      cases finished
      cases answered
      exact session_framed found line handled

end Handler

namespace Command

/-! ## Names -/

omit [Platform] in
theorem isLine_lowercase (bytes : Bytes) :
    isLine (lowercase bytes) = isLine bytes := by
  have control : ∀ {end' byte : UInt8}, end' < 65 →
      (toAsciiLowercase byte != end') = (byte != end') := by
    intro end' byte small
    unfold toAsciiLowercase
    split
    · rename_i upper
      simp only [Bool.and_eq_true, decide_eq_true_eq] at upper
      obtain ⟨low, high⟩ := upper
      have moved : byte + 32 ≠ end' := by grind
      have kept : byte ≠ end' := by grind
      rw [bne_iff_ne.mpr moved, bne_iff_ne.mpr kept]
    · rfl
  unfold isLine lowercase
  rw [List.all_map]
  congr 1
  funext byte
  rw [Function.comp, control (by decide), control (by decide)]

omit [Platform] in
theorem isLine_spelling (known : CommandName) :
    isLine (text known.spelling) = true := by
  cases known <;> decide

omit [Platform] in
theorem isLine_known
    {name : Bytes} {known : CommandName}
    (named : CommandName.ofBytes name = some known) :
    isLine name = true := by
  have spelled : text known.spelling = name := by
    simpa using List.find?_some named
  rw [← spelled]
  exact isLine_spelling known

/-- The word of a known command is one line if those are that the
configuration renames. -/
theorem commandName_line
    {db : Database} {argv : Arguments} {name : Bytes} {known : CommandName}
    (renames : RenamesLines db.config)
    (named : commandName db argv = .ok name)
    (isKnown : CommandName.ofBytes name = some known) :
    isLine (argv.headD []) = true := by
  match argv with
  | [] => rfl
  | word :: rest =>
      have isName := isLine_known isKnown
      rw [commandName_cons (.refl db.config)] at named
      split at named
      · show isLine word = true
        rw [← isLine_lowercase]
        unfold executedName mappedName at named
        split at named
        · cases named
        · rename_i resolved
          cases named
          split at resolved
          · cases resolved
            exact isName
          · split at resolved
            · rename_i renamed present
              apply renames
              rw [Finmap.mem_keys]
              exact Finmap.lookup_isSome.mp (by rw [present]; rfl)
            · cases resolved
              exact isName
      · cases named

/-! ## Gates -/

/-- The gates answer with lines of the source. -/
theorem answered_framed
    {known : Option CommandName} {command : ParsedCommand} {db : Database}
    {client after : Client} {reply : Response}
    (routed : route known command db client = .answered reply after) :
    reply.framed = true := by
  cases route_answered routed with
  | auth =>
      unfold authenticate
      split
      · rename_i refused
        have plain : Plain (do
            validate ((command.arguments : Arguments).length = 2)
              "Wrong number of parameters"
            tryValidate (Arguments.getStr command.arguments 1)
              "Invalid password" : Except Response Bytes) := by
          simp only [plain_bind, plain_validate, plain_valid]
          exact ⟨fun _ => by decide, fun _ _ _ _ => by decide⟩
        exact plain _ refused
      · split
        · exact Response.framed_ok
        · split
          · exact fail_framed (by decide)
          · exact fail_framed (by decide)
  | outsider => exact fail_framed (by decide)
  | multi =>
      unfold multi
      split
      · exact fail_framed (by decide)
      · exact Response.framed_ok
  | discard =>
      unfold discard
      split
      · exact Response.framed_ok
      · exact fail_framed (by decide)
  | watch => exact fail_framed (by decide)
  | queued => decide
  | select =>
      unfold select
      split
      · rename_i refused
        have plain : Plain (do
            validate ((command.arguments : Arguments).length = 2)
              "Wrong number of parameters"
            tryValidate (Arguments.getI64 command.arguments 1)
              "Invalid dbindex" : Except Response Int) := by
          simp only [plain_bind, plain_validate, plain_valid]
          exact ⟨fun _ => by decide, fun _ _ _ _ => by decide⟩
        exact plain _ refused
      · split
        · exact fail_framed (by decide)
        · exact Response.framed_ok

omit [Platform] in
theorem isLine_intercalate
    {separator : Bytes} (line : isLine separator = true)
    (parts : List Bytes) :
    isLine (separator.intercalate parts) = true ↔
      ∀ part ∈ parts, isLine part = true := by
  induction parts with
  | nil => simp [List.intercalate]
  | cons part rest ih =>
      cases rest with
      | nil => simp [List.intercalate]
      | cons next rest =>
          rw [List.intercalate_cons_cons, isLine_append, isLine_append, ih,
            List.forall_mem_cons]
          simp [line]

omit [Platform] in
theorem shownArguments_line (argv : Arguments) :
    isLine (shownArguments argv) = true ↔
      ∀ argument ∈ ((argv.take 4).drop 1).filter isUtf8,
        isLine argument = true := by
  have before : isLine (text ", with args beginning with: ") = true := by
    decide
  have space : isLine (text " ") = true := by decide
  have quote : isLine (text "'") = true := by decide
  unfold shownArguments
  dsimp only
  split
  · rename_i nothing
    rw [List.isEmpty_iff] at nothing
    rw [nothing]
    exact iff_of_true rfl nofun
  · rw [isLine_append, isLine_intercalate space, List.forall_mem_map]
    simp [before, quote]

/-- A word without a command is quoted with the arguments behind it. -/
theorem unnamed_framed
    {db : Database} {argv : Arguments} {reply : Response}
    (refused : commandName db argv = .error reply) :
    reply.framed = true ↔ (isUtf8 (argv.headD []) = true →
      isLine (argv.headD []) = true ∧
      ∀ argument ∈ ((argv.take 4).drop 1).filter isUtf8,
        isLine argument = true) := by
  have invalid : isLine (text "Invalid command") = true := by decide
  match argv with
  | [] =>
      cases refused
      exact iff_of_true invalid fun _ => ⟨rfl, nofun⟩
  | word :: rest =>
      rw [commandName_cons (.refl db.config)] at refused
      split at refused
      · rename_i utf8
        split at refused
        · cases refused
          have before : isLine (text "ERR unknown command '") = true := by
            decide
          have behind : isLine (text "'") = true := by decide
          rw [List.headD_cons, imp_iff_right utf8, ← shownArguments_line]
          simp [unknownCommand, before, behind]
        · cases refused
      · rename_i notUtf8
        cases refused
        exact iff_of_true invalid fun utf8 => absurd utf8 notUtf8

/-! ## Commands -/

/-- The reply to a command without EXEC is framed if every text that it
quotes is one line, and only then if the renaming words are. -/
theorem dispatch_framed
    {env : Env} {name : Bytes} {write : Bool} {command : ParsedCommand}
    {db : Database} {client between : Client} {outcome : Outcome}
    {reply : Response}
    (named : commandName db command.arguments = .ok name)
    (routed : route (CommandName.ofBytes name) command db client =
      .dispatched between)
    (ran : dispatch env name write command db between = some outcome)
    (answered : outcome.answer = .ok reply) :
    (QuotesLines env command db client → reply.framed = true) ∧
      (RenamesLines db.config → reply.framed = true →
        QuotesLines env command db client) := by
  unfold dispatch at ran
  dsimp only at ran
  split at ran
  · rename_i handler found
    obtain ⟨known, isKnown, found⟩ := Option.bind_eq_some_iff.mp found
    have quotations : quoted command db client =
        command.arguments.headD [] ::
          (quotedArgument known command.arguments).toList := by
      unfold quoted
      dsimp only
      rw [named]
      dsimp only
      rw [routed, isKnown]
      simp [found]
    unfold QuotesLines
    rw [quotations, List.forall_mem_cons]
    constructor
    · rintro ⟨line, quotes⟩
      exact (Handler.run_framed found line ran answered).mpr
        (by simpa using quotes)
    · intro renames framed
      have line := commandName_line renames named isKnown
      exact ⟨line, by
        simpa using (Handler.run_framed found line ran answered).mp framed⟩
  · rename_i unknown
    cases ran
    cases answered
    have nothing : (CommandName.ofBytes name).bind (fun known =>
        (Handler.ofName known).map fun _ =>
          quotedArgument known command.arguments) = none := by
      cases isKnown : CommandName.ofBytes name with
      | none => rfl
      | some known =>
          rw [isKnown] at unknown
          have unknown : Handler.ofName known = none := unknown
          simp [unknown]
    have quotations : quoted command db client =
        if (text "ft.").isPrefixOf name then [] else [name] := by
      unfold quoted
      dsimp only
      rw [named]
      dsimp only
      rw [routed, nothing]
    have before : isLine (text "ERR_UNKNOWN_CMD_MATCH:") = true := by decide
    unfold QuotesLines unmatched
    rw [quotations]
    split
    · have framed : (Response.fail ("ERR FT.* commands not available "
          ++ "(vector-search feature not enabled)")).framed = true :=
        fail_framed (by decide)
      exact ⟨fun _ => framed, fun _ _ => nofun⟩
    · simp [before]

/-- What is shown of a run, of each command of a queue. -/
theorem execAll_framed
    {run : Nat → ParsedCommand → Database → Client → Option Outcome}
    {allowed : Nat → ParsedCommand → Database → Client → Prop}
    (each : ∀ {position command db client outcome reply},
      run position command db client = some outcome →
      outcome.answer = .ok reply →
      (allowed position command db client → reply.framed = true) ∧
        (RenamesLines db.config → reply.framed = true →
          allowed position command db client))
    (fixed : ∀ {position command db client outcome},
      run position command db client = some outcome →
      Config.SameFixed db.config outcome.db.config)
    {queue : List ParsedCommand} {position : Nat} {db afterDb : Database}
    {client after : Client} {replies : List Response}
    (ran : execAll run position queue db client =
      some (replies, afterDb, after)) :
    (EachOf run allowed position queue db client →
        ∀ reply ∈ replies, reply.framed = true) ∧
      (RenamesLines db.config → (∀ reply ∈ replies, reply.framed = true) →
        EachOf run allowed position queue db client) := by
  induction queue generalizing position db client replies with
  | nil =>
      cases ran
      exact ⟨fun _ => nofun, fun _ _ => trivial⟩
  | cons command rest ih =>
      simp only [execAll, Option.bind_eq_bind, Option.bind_eq_some_iff]
        at ran
      obtain ⟨outcome, first, ran⟩ := ran
      split at ran
      · cases ran
      · rename_i reply answered
        simp only [Option.bind_eq_some_iff] at ran
        obtain ⟨⟨others, place⟩, ran, finished⟩ := ran
        cases finished
        obtain ⟨one, oneBack⟩ := each first answered
        obtain ⟨all, allBack⟩ := ih ran
        simp only [List.forall_mem_cons]
        constructor
        · rintro ⟨allow, along⟩
          exact ⟨one allow, all (along outcome first)⟩
        · rintro renames ⟨framed, othersFramed⟩
          refine ⟨oneBack renames framed, fun other same => ?_⟩
          cases first.symm.trans same
          apply allBack _ othersFramed
          unfold RenamesLines
          rw [(fixed first).renameCommands]
          exact renames

/-- The reply to EXEC. -/
theorem exec_framed
    {run : Nat → ParsedCommand → Database → Client → Option Outcome}
    {allowed : Nat → ParsedCommand → Database → Client → Prop}
    {db afterDb : Database} {client after : Client} {reply : Response}
    (queue : ∀ {replies}, execAll run 0 client.multiCommands db
        (started db client) = some (replies, afterDb, after) →
      (EachOf run allowed 0 client.multiCommands db (started db client) →
        ∀ reply ∈ replies, reply.framed = true) ∧
        (RenamesLines db.config →
          (∀ reply ∈ replies, reply.framed = true) →
          EachOf run allowed 0 client.multiCommands db (started db client)))
    (ran : exec run db client = some (reply, afterDb, after)) :
    ((client.multi = true → unmodified db client = true →
        EachOf run allowed 0 client.multiCommands db (started db client)) →
      reply.framed = true) ∧
      (RenamesLines db.config → reply.framed = true →
        client.multi = true → unmodified db client = true →
        EachOf run allowed 0 client.multiCommands db (started db client)) := by
  unfold exec at ran
  split at ran
  · rename_i outside
    cases ran
    refine ⟨fun _ => fail_framed (by decide), fun _ _ inMulti => ?_⟩
    simp [inMulti] at outside
  · rename_i inMulti
    have inMulti : client.multi = true := by simpa using inMulti
    dsimp only at ran
    split at ran
    · rename_i modified
      cases ran
      refine ⟨fun _ => Response.framed_nil, fun _ _ _ same => ?_⟩
      exact absurd same (by simpa [unmodified] using modified)
    · rename_i same
      simp only [Option.bind_eq_bind, Option.bind_eq_some_iff] at ran
      obtain ⟨⟨replies, place⟩, ran, finished⟩ := ran
      cases finished
      obtain ⟨all, allBack⟩ := queue ran
      rw [Response.framed_array]
      constructor
      · intro along
        exact all (along inMulti (by simpa [unmodified] using same))
      · intro renames framed _ _
        exact allBack renames framed

/-- The reply to a command at a depth of EXEC. -/
theorem commandAt_framed
    {depth : Nat} {world : World} {command : ParsedCommand} {db : Database}
    {client : Client} {outcome : Outcome} {reply : Response}
    (ran : commandAt depth world command db client = some outcome)
    (answered : outcome.answer = .ok reply) :
    (EachAt QuotesLines depth world command db client →
        reply.framed = true) ∧
      (RenamesLines db.config → reply.framed = true →
        EachAt QuotesLines depth world command db client) := by
  induction depth generalizing world command db client outcome reply with
  | zero => cases ran
  | succ depth ih =>
      obtain ⟨executed, executes, rfl⟩ := Option.map_eq_some_iff.mp ran
      rw [(logged_noted world.here command executed).2.2.1] at answered
      -- without EXEC the condition is about the command alone
      have alone : (∀ name after,
          commandName db command.arguments = .ok name →
          route (CommandName.ofBytes name) command db client ≠ .exec after) →
          (EachAt QuotesLines (depth + 1) world command db client ↔
            QuotesLines world.here command db client) := by
        intro notExec
        apply and_iff_left_of_imp
        intro _ name after named routed
        exact absurd routed (notExec name after named)
      cases executeCommand_executes executes with
      | empty nothing => cases answered
      | unnamed something refused =>
          cases answered
          rw [alone (by simp [refused])]
          have framed := unnamed_framed refused
          have quotes : QuotesLines world.here command db client ↔
              (isUtf8 (command.arguments.headD []) = true →
                isLine (command.arguments.headD []) = true ∧
                ∀ argument ∈ ((command.arguments.take 4).drop 1).filter
                  isUtf8, isLine argument = true) := by
            unfold QuotesLines quoted
            dsimp only
            rw [refused]
            dsimp only
            split
            · rename_i utf8
              rw [List.forall_mem_cons, imp_iff_right utf8]
            · rename_i notUtf8
              exact iff_of_true nofun fun utf8 => absurd utf8 notUtf8
          exact ⟨framed.mpr ∘ quotes.mp, fun _ => quotes.mpr ∘ framed.mp⟩
      | answered something named routed =>
          cases answered
          have notExec : ∀ other after,
              commandName db command.arguments = .ok other →
              route (CommandName.ofBytes other) command db client ≠
                .exec after := by
            intro other after again isExec
            cases named.symm.trans again
            cases routed.symm.trans isExec
          rw [alone notExec]
          have quotations : quoted command db client = [] := by
            unfold quoted
            dsimp only
            rw [named]
            dsimp only
            rw [routed]
          unfold QuotesLines
          rw [quotations]
          exact ⟨fun _ => answered_framed routed, fun _ _ => nofun⟩
      | exec something named routed execRan =>
          cases answered
          have isExec := (route_exec routed).2
          subst isExec
          have quotes : QuotesLines world.here command db client := by
            unfold QuotesLines quoted
            dsimp only
            rw [named]
            dsimp only
            rw [routed]
            nofun
          obtain ⟨all, allBack⟩ := exec_framed
            (fun ran => execAll_framed (fun ran answered => ih ran answered)
              (fun ran => commandAt_fixed ran) ran) execRan
          constructor
          · rintro ⟨-, inside⟩
            exact all (inside _ _ named routed)
          · intro renames framed
            refine ⟨quotes, fun _ _ _ again => ?_⟩
            have same := (route_exec again).2
            subst same
            exact allBack renames framed
      | dispatched something named routed dispatchRan =>
          have notExec : ∀ other after,
              commandName db command.arguments = .ok other →
              route (CommandName.ofBytes other) command db client ≠
                .exec after := by
            intro other after again isExec
            cases named.symm.trans again
            cases routed.symm.trans isExec
          rw [alone notExec]
          exact dispatch_framed named routed dispatchRan answered

end Command

open Command

end

section

attribute [local instance] Platform.integral

open Command

end

end RedVector
