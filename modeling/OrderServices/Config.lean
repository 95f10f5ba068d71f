import Mathlib.Logic.Function.Basic
import OrderServices.Library.Numerals
import OrderServices.Startup

/-! The environment variables that override the configuration of a service. `ApplyEnvironment` goes
through the variables of its service, reads those that are set and throws at the first one that
cannot be read. -/
namespace OrderServices

open Numerals

inductive Environment
  | undefined
  | «local»
  | debug
  | staging
  | production
  deriving DecidableEq, Repr

def parseEnvironment (value : String) : Except String Environment :=
  if value = "" then .ok .undefined
  else if value = "local" then .ok .local
  else if value = "debug" then .ok .debug
  else if value = "staging" then .ok .staging
  else if value = "production" then .ok .production
  else .error ("invalid service environment: " ++ value)

def parseEnvironmentInt (name value : String) : Except String Int32 :=
  match fromChars (-2 ^ 31) (2 ^ 31 - 1) value.toList with
  | (.ok result, []) => .ok (.ofInt result)
  | _ => .error ("invalid integer in " ++ name)

/-- `ApplyEnvironment` where it reads a Boolean. -/
def parseEnvironmentBool (name value : String) : Except String Bool :=
  if value ≠ "true" ∧ value ≠ "false" then .error ("invalid boolean in " ++ name)
  else .ok (value = "true")

/-- The enumerations that are read as YAML. -/
inductive YamlEnum
  | kafkaSaslMechanism
  | kafkaSecurityProtocol
  | scheduleMissedRunPolicy
  | scheduleOverlapPolicy
  deriving DecidableEq, Repr

inductive VariableKind
  | int
  | text
  | bool
  | environment
  | yaml (type : YamlEnum)
  deriving DecidableEq, Repr

/-- The value of a field. `E` holds the enumerators of the YAML enumerations. -/
inductive ConfigValue (E : Type)
  | int (value : Int32)
  | text (value : String)
  | bool (value : Bool)
  | environment (value : Environment)
  | enumerator (value : E)
  deriving DecidableEq, Repr

/-- The variables of a service in the order in which `ApplyEnvironment` goes through them. -/
def Service.variables : Service → List (String × VariableKind)
  | .order => [("DEFAULT_POOL_EXECUTORS_COUNT", .int), ("INVENTORY_SERVICE_API_ADDRESS", .text),
      ("INVENTORY_SERVICE_API_CONNECTIONS_COUNT", .int), ("ORDER_EVENTS_BROKERS", .text),
      ("ORDER_EVENTS_PASSWORD", .text), ("ORDER_EVENTS_SASL_MECHANISM", .yaml .kafkaSaslMechanism),
      ("ORDER_EVENTS_SECURITY_PROTOCOL", .yaml .kafkaSecurityProtocol),
      ("ORDER_EVENTS_USERNAME", .text), ("ORDER_PROCESSED_ENABLED", .bool),
      ("ORDER_SERVICE_DEFAULT_GRPC_TIMEOUT", .int), ("ORDER_SERVICE_ENVIRONMENT", .environment),
      ("ORDER_SERVICE_GRPC_HOST", .text), ("ORDER_SERVICE_GRPC_PORT", .int),
      ("ORDER_SERVICE_HTTP_HOST", .text), ("ORDER_SERVICE_HTTP_PORT", .int),
      ("SOFT_DEADLINE_DURATION", .int)]
  | .inventory => [("INVENTORY_PRIORITY_WORKERS_EXECUTORS_COUNT", .int),
      ("INVENTORY_SERVICE_API_ADDRESS", .text), ("INVENTORY_SERVICE_API_CONNECTIONS_COUNT", .int),
      ("INVENTORY_SERVICE_DEFAULT_GRPC_TIMEOUT", .int),
      ("INVENTORY_SERVICE_ENVIRONMENT", .environment), ("INVENTORY_SERVICE_GRPC_HOST", .text),
      ("INVENTORY_SERVICE_GRPC_PORT", .int), ("INVENTORY_SERVICE_HTTP_HOST", .text),
      ("INVENTORY_SERVICE_HTTP_PORT", .int)]
  | .analytics => [("ANALYTICS_SCHEDULE_ENABLED", .bool),
      ("ANALYTICS_SCHEDULE_MISSED_RUN_POLICY", .yaml .scheduleMissedRunPolicy),
      ("ANALYTICS_SCHEDULE_OVERLAP_POLICY", .yaml .scheduleOverlapPolicy),
      ("ANALYTICS_SCHEDULE_SCHEDULE", .text), ("ANALYTICS_SCHEDULE_TIMEZONE", .text),
      ("ANALYTICS_SCHEDULE_TRACING_ENABLED", .bool),
      ("ANALYTICS_SERVICE_DEFAULT_GRPC_TIMEOUT", .int),
      ("ANALYTICS_SERVICE_ENVIRONMENT", .environment), ("ANALYTICS_SERVICE_GRPC_HOST", .text),
      ("ANALYTICS_SERVICE_GRPC_PORT", .int), ("ANALYTICS_SERVICE_HTTP_HOST", .text),
      ("ANALYTICS_SERVICE_HTTP_PORT", .int), ("ORDER_EVENTS_BROKERS", .text),
      ("ORDER_EVENTS_PASSWORD", .text), ("ORDER_EVENTS_SASL_MECHANISM", .yaml .kafkaSaslMechanism),
      ("ORDER_EVENTS_SECURITY_PROTOCOL", .yaml .kafkaSecurityProtocol),
      ("ORDER_EVENTS_USERNAME", .text), ("ORDER_PROCESSED_ENABLED", .bool)]

/-- The fields of a configuration, each under the variable that overrides it. -/
abbrev Config (E : Type) := String → ConfigValue E

variable {E : Type}

/-- How a variable of a kind is read. The YAML library tells the enumerators. -/
def VariableKind.parse (yaml : YamlEnum → String → Except String E) (kind : VariableKind)
    (name value : String) : Except String (ConfigValue E) :=
  match kind with
  | .int => (parseEnvironmentInt name value).map .int
  | .text => .ok (.text value)
  | .bool => (parseEnvironmentBool name value).map .bool
  | .environment => (parseEnvironment value).map .environment
  | .yaml type => (yaml type value).map .enumerator

def overrideVariable (yaml : YamlEnum → String → Except String E) (getenv : String → Option String)
    (config : Config E) (v : String × VariableKind) : Except String (Config E) :=
  match getenv v.1 with
  | none => .ok config
  | some value => (v.2.parse yaml v.1 value).map (Function.update config v.1)

def applyEnvironment (yaml : YamlEnum → String → Except String E) (getenv : String → Option String)
    (service : Service) (config : Config E) : Except String (Config E) :=
  service.variables.foldlM (overrideVariable yaml getenv) config

/-! ## What a variable can say -/

/-- The texts of a variable and what they say. -/
inductive Says (yaml : YamlEnum → String → Except String E) :
    VariableKind → String → ConfigValue E → Prop
  | int {value : String} {n : Int32} (numeral : Denotes value.toList n.toInt) :
      Says yaml .int value (.int n)
  | text (value : String) : Says yaml .text value (.text value)
  | enabled : Says yaml .bool "true" (.bool true)
  | disabled : Says yaml .bool "false" (.bool false)
  | undefined : Says yaml .environment "" (.environment .undefined)
  | «local» : Says yaml .environment "local" (.environment .local)
  | debug : Says yaml .environment "debug" (.environment .debug)
  | staging : Says yaml .environment "staging" (.environment .staging)
  | production : Says yaml .environment "production" (.environment .production)
  | yaml {type : YamlEnum} {value : String} {e : E} (read : yaml type value = .ok e) :
      Says yaml (.yaml type) value (.enumerator e)

/-- What is thrown at a variable that cannot be read. -/
def VariableKind.complaint (yaml : YamlEnum → String → Except String E) (kind : VariableKind)
    (name value : String) : String :=
  match kind with
  | .int => "invalid integer in " ++ name
  | .text => ""
  | .bool => "invalid boolean in " ++ name
  | .environment => "invalid service environment: " ++ value
  | .yaml type => match yaml type value with
    | .ok _ => ""
    | .error what => what

theorem Except.map_eq_ok {ε α β : Type} {x : Except ε α} {f : α → β} {b : β} :
    x.map f = .ok b ↔ ∃ a, x = .ok a ∧ f a = b := by
  cases x <;> simp [Except.map]

theorem Except.map_eq_error {ε α β : Type} {x : Except ε α} {f : α → β} {e : ε} :
    x.map f = .error e ↔ x = .error e := by
  cases x <;> simp [Except.map]

theorem parseEnvironmentInt_eq_ok {name value : String} {n : Int32} :
    parseEnvironmentInt name value = .ok n ↔ Denotes value.toList n.toInt := by
  constructor
  · intro read
    unfold parseEnvironmentInt at read
    split at read
    · rename_i result whole
      obtain ⟨numeral, low, high⟩ := fromChars_eq_ok.mp whole
      cases read
      rw [Int32.toInt_ofInt_of_le low (by omega)]
      exact numeral
    · cases read
  · intro numeral
    have inRange : (2 : ℤ) ^ 31 - 1 ≥ n.toInt := Int.le_sub_one_of_lt n.toInt_lt
    unfold parseEnvironmentInt
    rw [fromChars_eq_ok.mpr ⟨numeral, n.le_toInt, inRange⟩]
    exact congrArg Except.ok (Int32.ofInt_toInt n)

theorem parseEnvironment_eq_ok {value : String} {e : Environment}
    (read : parseEnvironment value = .ok e) (yaml : YamlEnum → String → Except String E) :
    Says yaml .environment value (.environment e) := by
  unfold parseEnvironment at read
  split at read
  · rename_i text
    cases read
    rw [text]
    exact .undefined
  split at read
  · rename_i text
    cases read
    rw [text]
    exact .local
  split at read
  · rename_i text
    cases read
    rw [text]
    exact .debug
  split at read
  · rename_i text
    cases read
    rw [text]
    exact .staging
  split at read
  · rename_i text
    cases read
    rw [text]
    exact .production
  · cases read

theorem parseEnvironmentBool_eq_ok {name value : String} {b : Bool}
    (read : parseEnvironmentBool name value = .ok b) (yaml : YamlEnum → String → Except String E) :
    Says yaml .bool value (.bool b) := by
  unfold parseEnvironmentBool at read
  split at read
  · cases read
  · rename_i known
    cases read
    by_cases enabled : value = "true"
    · rw [enabled]
      exact .enabled
    · have disabled : value = "false" := by
        by_contra other
        exact known ⟨enabled, other⟩
      rw [disabled]
      exact .disabled

section Variables

variable {yaml : YamlEnum → String → Except String E} {getenv : String → Option String}

theorem VariableKind.parse_eq_ok {kind : VariableKind} {name text : String} {value : ConfigValue E} :
    kind.parse yaml name text = .ok value ↔ Says yaml kind text value := by
  constructor
  · intro read
    cases kind with
    | int =>
        obtain ⟨n, given, rfl⟩ := Except.map_eq_ok.mp read
        exact .int (parseEnvironmentInt_eq_ok.mp given)
    | text =>
        cases read
        exact .text text
    | bool =>
        obtain ⟨b, given, rfl⟩ := Except.map_eq_ok.mp read
        exact parseEnvironmentBool_eq_ok given yaml
    | environment =>
        obtain ⟨e, given, rfl⟩ := Except.map_eq_ok.mp read
        exact parseEnvironment_eq_ok given yaml
    | yaml type =>
        obtain ⟨e, given, rfl⟩ := Except.map_eq_ok.mp read
        exact .yaml given
  · intro told
    cases told with
    | int numeral => exact Except.map_eq_ok.mpr ⟨_, parseEnvironmentInt_eq_ok.mpr numeral, rfl⟩
    | yaml read => exact Except.map_eq_ok.mpr ⟨_, read, rfl⟩
    | text => rfl
    | enabled => rfl
    | disabled => rfl
    | undefined => rfl
    | «local» => rfl
    | debug => rfl
    | staging => rfl
    | production => rfl

/-- What is thrown names the variable, or shows what it has said. -/
theorem VariableKind.parse_complaint {kind : VariableKind} {name text what : String}
    (refused : kind.parse yaml name text = .error what) : what = kind.complaint yaml name text := by
  cases kind with
  | int =>
      have unread : parseEnvironmentInt name text = .error what := Except.map_eq_error.mp refused
      unfold parseEnvironmentInt at unread
      split at unread
      · cases unread
      · exact (Except.error.inj unread).symm
  | text => cases refused
  | bool =>
      have unread : parseEnvironmentBool name text = .error what := Except.map_eq_error.mp refused
      unfold parseEnvironmentBool at unread
      split at unread
      · exact (Except.error.inj unread).symm
      · cases unread
  | environment =>
      have unread : parseEnvironment text = .error what := Except.map_eq_error.mp refused
      unfold parseEnvironment at unread
      repeat' split at unread
      all_goals cases unread
      rfl
  | yaml type =>
      have unread : yaml type text = .error what := Except.map_eq_error.mp refused
      change what = match yaml type text with
        | .ok _ => ""
        | .error what => what
      rw [unread]

theorem VariableKind.parse_eq_error {kind : VariableKind} {name text what : String} :
    kind.parse yaml name text = .error what ↔
      (∀ value, ¬Says yaml kind text value) ∧ what = kind.complaint yaml name text := by
  constructor
  · intro refused
    refine ⟨?_, parse_complaint refused⟩
    intro value told
    rw [parse_eq_ok.mpr told] at refused
    cases refused
  · rintro ⟨silent, rfl⟩
    cases read : kind.parse yaml name text with
    | ok value => exact absurd (parse_eq_ok.mp read) (silent value)
    | error what => rw [parse_complaint read]

/-! ## All variables -/

/-- `config'` is `config` with what the variables say. -/
structure Overridden (yaml : YamlEnum → String → Except String E) (getenv : String → Option String)
    (entries : List (String × VariableKind)) (config config' : Config E) : Prop where
  given : ∀ v ∈ entries, ∀ text, getenv v.1 = some text → Says yaml v.2 text (config' v.1)
  kept : ∀ name, (∀ v ∈ entries, v.1 = name → getenv name = none) → config' name = config name

/-- The variables up to `v` can be read, and `v` cannot. -/
structure Unreadable (yaml : YamlEnum → String → Except String E) (getenv : String → Option String)
    (front : List (String × VariableKind)) (v : String × VariableKind) (what : String) : Prop where
  earlier : ∀ u ∈ front, ∀ text, getenv u.1 = some text → ∃ value, Says yaml u.2 text value
  here : ∃ text, getenv v.1 = some text ∧ (∀ value, ¬Says yaml v.2 text value) ∧
    what = v.2.complaint yaml v.1 text

theorem overrideVariable_eq_ok {config config' : Config E} {v : String × VariableKind} :
    overrideVariable yaml getenv config v = .ok config' ↔
      (getenv v.1 = none ∧ config' = config) ∨
      ∃ text value, getenv v.1 = some text ∧ Says yaml v.2 text value ∧
        config' = Function.update config v.1 value := by
  unfold overrideVariable
  cases set : getenv v.1 with
  | none => simp [eq_comm]
  | some text =>
      simp only [Except.map_eq_ok, VariableKind.parse_eq_ok]
      constructor
      · rintro ⟨value, told, rfl⟩
        exact .inr ⟨text, value, rfl, told, rfl⟩
      · rintro (⟨impossible, -⟩ | ⟨_, value, ⟨⟩, told, rfl⟩)
        · cases impossible
        · exact ⟨value, told, rfl⟩

theorem overrideVariable_eq_error {config : Config E} {v : String × VariableKind} {what : String} :
    overrideVariable yaml getenv config v = .error what ↔ Unreadable yaml getenv [] v what := by
  unfold overrideVariable
  cases here : getenv v.1 with
  | none =>
      refine iff_of_false nofun ?_
      rintro ⟨-, text, set, -⟩
      rw [here] at set
      cases set
  | some text =>
      simp only [Except.map_eq_error, VariableKind.parse_eq_error]
      constructor
      · exact fun refused => ⟨nofun, text, here, refused⟩
      · rintro ⟨-, text', set, refused⟩
        rw [here] at set
        cases set
        exact refused

/-- The first variable has been read, and the others override what it has left. -/
theorem overridden_cons {v : String × VariableKind} {entries : List (String × VariableKind)}
    (fresh : v.1 ∉ entries.map Prod.fst) {config config' : Config E} :
    Overridden yaml getenv (v :: entries) config config' ↔
      ∃ middle, overrideVariable yaml getenv config v = .ok middle ∧
        Overridden yaml getenv entries middle config' := by
  have other : ∀ u ∈ entries, u.1 ≠ v.1 := fun u here same => fresh (List.mem_map.mpr ⟨u, here, same⟩)
  constructor
  · rintro ⟨given, kept⟩
    cases unset : getenv v.1 with
    | none =>
        refine ⟨config, overrideVariable_eq_ok.mpr (.inl ⟨unset, rfl⟩), ?_, ?_⟩
        · exact fun u here => given u (List.mem_cons_of_mem v here)
        · intro name silent
          apply kept
          intro u here same
          rcases List.mem_cons.mp here with rfl | here
          · rw [← same]
            exact unset
          · exact silent u here same
    | some text =>
        refine ⟨Function.update config v.1 (config' v.1), ?_, ?_, ?_⟩
        · exact overrideVariable_eq_ok.mpr
            (.inr ⟨text, _, unset, given v List.mem_cons_self text unset, rfl⟩)
        · exact fun u here => given u (List.mem_cons_of_mem v here)
        · intro name silent
          by_cases own : name = v.1
          · rw [own, Function.update_self]
          · rw [Function.update_of_ne own]
            apply kept
            intro u here same
            rcases List.mem_cons.mp here with rfl | here
            · exact absurd same.symm own
            · exact silent u here same
  · rintro ⟨middle, read, given, kept⟩
    have own : config' v.1 = middle v.1 := kept v.1 fun u here same => absurd same (other u here)
    rcases overrideVariable_eq_ok.mp read with ⟨unset, rfl⟩ | ⟨text, value, set, told, rfl⟩
    · constructor
      · intro u here text set
        rcases List.mem_cons.mp here with rfl | here
        · rw [unset] at set
          cases set
        · exact given u here text set
      · intro name silent
        exact kept name fun u here => silent u (List.mem_cons_of_mem v here)
    · rw [Function.update_self] at own
      constructor
      · intro u here text' set'
        rcases List.mem_cons.mp here with rfl | here
        · rw [set] at set'
          cases set'
          rw [own]
          exact told
        · exact given u here text' set'
      · intro name silent
        have apart : name ≠ v.1 := by
          rintro rfl
          rw [silent v List.mem_cons_self rfl] at set
          cases set
        rw [kept name fun u here => silent u (List.mem_cons_of_mem v here),
          Function.update_of_ne apart]

theorem overrideAll_eq_ok {entries : List (String × VariableKind)}
    (distinct : (entries.map Prod.fst).Nodup) {config config' : Config E} :
    entries.foldlM (overrideVariable yaml getenv) config = .ok config' ↔
      Overridden yaml getenv entries config config' := by
  induction entries generalizing config with
  | nil =>
      constructor
      · rintro ⟨⟩
        exact ⟨nofun, fun _ _ => rfl⟩
      · intro overridden
        have same : config' = config := funext fun name => overridden.kept name nofun
        rw [same]
        rfl
  | cons v entries ih =>
      obtain ⟨fresh, distinct⟩ := List.nodup_cons.mp distinct
      rw [overridden_cons fresh, List.foldlM_cons]
      cases read : overrideVariable yaml getenv config v with
      | ok middle =>
          refine (ih distinct).trans ?_
          simp
      | error what => simp [bind, Except.bind]

/-- A variable can be read from any configuration or from none. -/
theorem overrideVariable_isOk {config : Config E} {v : String × VariableKind} :
    (∃ config', overrideVariable yaml getenv config v = .ok config') ↔
      ∀ text, getenv v.1 = some text → ∃ value, Says yaml v.2 text value := by
  simp only [overrideVariable_eq_ok]
  constructor
  · rintro ⟨config', ⟨unset, -⟩ | ⟨text, value, set, told, -⟩⟩ text' set'
    · rw [unset] at set'
      cases set'
    · rw [set] at set'
      cases set'
      exact ⟨value, told⟩
  · intro readable
    cases set : getenv v.1 with
    | none => exact ⟨config, .inl ⟨rfl, rfl⟩⟩
    | some text =>
        obtain ⟨value, told⟩ := readable text set
        exact ⟨_, .inr ⟨text, value, rfl, told, rfl⟩⟩

theorem overrideAll_eq_error {entries : List (String × VariableKind)} {config : Config E}
    {what : String} :
    entries.foldlM (overrideVariable yaml getenv) config = .error what ↔
      ∃ front v back, entries = front ++ v :: back ∧ Unreadable yaml getenv front v what := by
  induction entries generalizing config with
  | nil =>
      refine iff_of_false nofun ?_
      rintro ⟨front, v, back, split, -⟩
      simp at split
  | cons v entries ih =>
      rw [List.foldlM_cons]
      cases read : overrideVariable yaml getenv config v with
      | ok middle =>
          have readable := overrideVariable_isOk.mp ⟨middle, read⟩
          refine (@ih middle).trans ?_
          constructor
          · rintro ⟨front, u, back, rfl, earlier, here⟩
            refine ⟨v :: front, u, back, rfl, ?_, here⟩
            intro w member
            rcases List.mem_cons.mp member with rfl | member
            · exact readable
            · exact earlier w member
          · rintro ⟨front, u, back, split, earlier, here⟩
            cases front with
            | nil =>
                obtain ⟨rfl, -⟩ := List.cons.inj split
                have refused : overrideVariable yaml getenv config v = .error what :=
                  overrideVariable_eq_error.mpr ⟨nofun, here⟩
                rw [read] at refused
                cases refused
            | cons w front =>
                obtain ⟨rfl, rest⟩ := List.cons.inj split
                refine ⟨front, u, back, rest, ?_, here⟩
                intro x member
                exact earlier x (List.mem_cons_of_mem v member)
      | error given =>
          constructor
          · rintro ⟨⟩
            exact ⟨[], v, entries, rfl, overrideVariable_eq_error.mp read⟩
          · rintro ⟨front, u, back, split, earlier, here⟩
            cases front with
            | nil =>
                obtain ⟨rfl, -⟩ := List.cons.inj split
                have refused : overrideVariable yaml getenv config v = .error what :=
                  overrideVariable_eq_error.mpr ⟨nofun, here⟩
                exact read.symm.trans refused
            | cons w front =>
                obtain ⟨rfl, -⟩ := List.cons.inj split
                obtain ⟨config', ok⟩ := overrideVariable_isOk.mpr (earlier v List.mem_cons_self)
                rw [read] at ok
                cases ok

end Variables

/-- Every service reads each of its variables once. -/
theorem Service.variables_nodup (service : Service) : (service.variables.map Prod.fst).Nodup := by
  cases service <;> decide

/-- What `ApplyEnvironment` makes of a configuration, whatever is set: each field gets what its
variable says and the other ones are kept, or the first variable that says nothing is complained
about. -/
theorem environment_applied (yaml : YamlEnum → String → Except String E)
    (getenv : String → Option String) (service : Service) (config : Config E) :
    (∀ config', applyEnvironment yaml getenv service config = .ok config' ↔
      Overridden yaml getenv service.variables config config') ∧
    ∀ what, applyEnvironment yaml getenv service config = .error what ↔
      ∃ front v back, service.variables = front ++ v :: back ∧ Unreadable yaml getenv front v what :=
  ⟨fun _ => overrideAll_eq_ok service.variables_nodup, fun _ => overrideAll_eq_error⟩

/-! ## Values that are written into the environment -/

/-- The text that a deployment writes for a value. -/
def Environment.name : Environment → String
  | .undefined => ""
  | .local => "local"
  | .debug => "debug"
  | .staging => "staging"
  | .production => "production"

def ConfigValue.written (print : E → String) : ConfigValue E → String
  | .int value => toString value.toInt
  | .text value => value
  | .bool value => if value then "true" else "false"
  | .environment value => value.name
  | .enumerator value => print value

/-- The values that a variable of a kind can hold. -/
inductive ConfigValue.Fits (yaml : YamlEnum → String → Except String E) (print : E → String) :
    ConfigValue E → VariableKind → Prop
  | int (value : Int32) : Fits yaml print (.int value) .int
  | text (value : String) : Fits yaml print (.text value) .text
  | bool (value : Bool) : Fits yaml print (.bool value) .bool
  | environment (value : Environment) : Fits yaml print (.environment value) .environment
  | enumerator {type : YamlEnum} {value : E} (read : yaml type (print value) = .ok value) :
      Fits yaml print (.enumerator value) (.yaml type)

theorem ConfigValue.Fits.told {yaml : YamlEnum → String → Except String E} {print : E → String}
    {value : ConfigValue E} {kind : VariableKind} (fits : value.Fits yaml print kind) :
    Says yaml kind (value.written print) value := by
  cases fits with
  | int value => exact .int (denotes_toString value.toInt)
  | text value => exact .text value
  | bool value =>
      cases value with
      | true => exact .enabled
      | false => exact .disabled
  | environment value =>
      cases value with
      | undefined => exact .undefined
      | «local» => exact .local
      | debug => exact .debug
      | staging => exact .staging
      | production => exact .production
  | enumerator read => exact .yaml read

/-- A configuration written into the environment is what the service reads back, whatever its own
configuration says. -/
theorem environment_read_back {yaml : YamlEnum → String → Except String E} {print : E → String}
    (service : Service) (config wanted : Config E)
    (fits : ∀ v ∈ service.variables, (wanted v.1).Fits yaml print v.2) :
    applyEnvironment yaml (fun name => some ((wanted name).written print)) service config =
      .ok fun name => if name ∈ service.variables.map Prod.fst then wanted name else config name := by
  refine (overrideAll_eq_ok service.variables_nodup).mpr ⟨?_, ?_⟩
  · rintro v here _ ⟨⟩
    have listed : v.1 ∈ service.variables.map Prod.fst := List.mem_map_of_mem here
    simp only [if_pos listed]
    exact (fits v here).told
  · intro name silent
    refine if_neg ?_
    intro listed
    obtain ⟨v, here, same⟩ := List.mem_map.mp listed
    exact absurd (silent v here same) nofun

/-- All numbers are written as -1, and the service is to run as staging. -/
theorem environment_read_back_staging :
    ∃ (wanted config' : Config Empty) (yaml : YamlEnum → String → Except String Empty),
      wanted "INVENTORY_SERVICE_GRPC_PORT" = .int (-1) ∧
      applyEnvironment yaml (fun name => some ((wanted name).written Empty.elim)) .inventory
        (fun _ => .text "") = .ok config' ∧
      config' "INVENTORY_SERVICE_GRPC_PORT" = .int (-1) ∧
      config' "INVENTORY_SERVICE_ENVIRONMENT" = .environment .staging := by
  let texts := ["INVENTORY_SERVICE_API_ADDRESS", "INVENTORY_SERVICE_GRPC_HOST",
    "INVENTORY_SERVICE_HTTP_HOST"]
  let wanted : Config Empty := fun name =>
    if name = "INVENTORY_SERVICE_ENVIRONMENT" then .environment .staging
    else if name ∈ texts then .text "0.0.0.0"
    else .int (-1)
  let yaml : YamlEnum → String → Except String Empty := fun _ _ => .error "not read"
  have fits : ∀ v ∈ Service.inventory.variables, (wanted v.1).Fits yaml Empty.elim v.2 := by
    simp only [Service.variables, List.forall_mem_cons]
    exact ⟨.int _, .text _, .int _, .int _, .environment _, .text _, .int _, .text _, .int _,
      List.forall_mem_nil _⟩
  exact ⟨wanted, _, yaml, rfl, environment_read_back .inventory _ wanted fits, rfl, rfl⟩

end OrderServices
