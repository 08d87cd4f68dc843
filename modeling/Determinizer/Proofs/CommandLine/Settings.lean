import Determinizer.CommandLine.Session

/-! # Settings that a command line asks for

Each setting follows from one option: lenient reading is not strict, and a limit of zero states is
no limit. Arguments ask for settings in this sense exactly if these are the settings that a run
uses; other arguments ask for none and are refused.
-/

namespace Determinizer

namespace Config

/-- Checked settings are the ones that were given, and they pass the checks. -/
theorem make_eq_ok_iff {config : Config} {alphabet : List Symbol} {text : String} {strict : Bool}
    {maxStates : Option Int} : make alphabet text strict maxStates = .ok config ↔
    config.alphabet = alphabet ∧ text = config.policy.toText ∧ config.strict = strict ∧
      (∀ limit ∈ maxStates, 0 < limit) ∧ config.maxStates = maxStates.map Int.toNat := by
  rw [make]
  constructor
  · intro made
    split at made
    · split at made
      · split at made
        · contradiction
        · rename_i policy named
          split at made
          · rename_i positive
            obtain rfl := Except.ok.inj made
            exact ⟨rfl, Policy.ofText?_eq_some_iff.mp named, rfl, positive, rfl⟩
          · contradiction
      · contradiction
    · contradiction
  · rintro ⟨rfl, rfl, rfl, positive, limit_eq⟩
    rw [dif_pos config.alphabet_ne_nil, dif_pos config.alphabet_nodup, Policy.ofText?_toText]
    simp only [dif_pos positive, ← limit_eq]

end Config

namespace CommandLine

/-- The settings follow from the options, one by one. -/
structure Arguments.AskFor (arguments : Arguments) (config : Config) : Prop where
  alphabet_eq : config.alphabet = arguments.alphabet
  policy_eq : arguments.policy = some config.policy
  strict_eq : config.strict = !arguments.lenient
  unlimited_iff : config.maxStates = none ↔
    arguments.maxStates = none ∨ arguments.maxStates = some 0
  limit_eq : ∀ limit : Nat, config.maxStates = some limit → arguments.maxStates = some (limit : Int)

variable {arguments : Arguments} {config : Config} {maxStates : Option Int}

theorem Arguments.policyText_eq_toText_iff {policy : Policy} :
    arguments.policyText = policy.toText ↔ arguments.policy = some policy := by
  rw [policyText]
  cases arguments.policy with
  | none => cases policy <;> decide
  | some other => cases other <;> cases policy <;> decide

/-- A limit of zero is none, and any other limit is positive. -/
theorem limit_iff {limit? : Option Nat} :
    ((∀ limit ∈ maxStates.filter (· ≠ 0), 0 < limit) ∧
        limit? = (maxStates.filter (· ≠ 0)).map Int.toNat) ↔
      (limit? = none ↔ maxStates = none ∨ maxStates = some 0) ∧
        ∀ limit : Nat, limit? = some limit → maxStates = some (limit : Int) := by
  cases maxStates with
  | none => cases limit? <;> simp
  | some value =>
    by_cases zero : value = 0
    · have filtered : (some value).filter (· ≠ 0) = none := by simp [Option.filter, zero]
      rw [filtered]
      cases limit? <;> simp [zero]
    · have filtered : (some value).filter (· ≠ 0) = some value := by simp [Option.filter, zero]
      rw [filtered]
      cases limit? with
      | none => simp [zero]
      | some limit =>
        simp only [Option.mem_def, Option.some.injEq, forall_eq', Option.map_some, reduceCtorEq,
          zero, or_false, iff_self, true_and]
        omega

/-- The settings of a run are the ones that its arguments ask for. -/
theorem Arguments.config_eq_ok_iff : arguments.config = .ok config ↔ arguments.AskFor config := by
  rw [Arguments.config, Config.make_eq_ok_iff, policyText_eq_toText_iff, limit_iff]
  constructor
  · rintro ⟨alphabet_eq, policy_eq, strict_eq, unlimited_iff, limit_eq⟩
    exact ⟨alphabet_eq, policy_eq, strict_eq, unlimited_iff, limit_eq⟩
  · rintro ⟨alphabet_eq, policy_eq, strict_eq, unlimited_iff, limit_eq⟩
    exact ⟨alphabet_eq, policy_eq, strict_eq, unlimited_iff, limit_eq⟩

end CommandLine

end Determinizer
