import Determinizer.NFA.Basic
import Determinizer.Policy

/-! # Settings of a conversion

The alphabet is not empty and repeats no symbol, and a limit on the number of states is positive.
Settings that break a rule are refused, by the first rule they break.
-/

namespace Determinizer

/-- How to read a description and what automaton to make of it. -/
structure Config where
  alphabet : List Symbol
  policy : Policy
  strict : Bool
  maxStates : Option Nat
  alphabet_ne_nil : alphabet ≠ []
  alphabet_nodup : alphabet.Nodup
  maxStates_pos : ∀ limit ∈ maxStates, 0 < limit
  deriving DecidableEq

namespace Config

/-- Why settings are refused. -/
inductive Fault where
  | emptyAlphabet
  | repeatedSymbols (alphabet : List Symbol)
  | unknownPolicy (text : String)
  | limitNotPositive
  deriving DecidableEq, Repr

def Fault.message : Fault → String
  | emptyAlphabet => "Алфавит не может быть пустым"
  | repeatedSymbols alphabet => "Символы алфавита повторяются: " ++ Text.quotedList alphabet
  | unknownPolicy text =>
    Policy.unknownMessage text ++ ", ожидается одна из " ++ Policy.choices
  | limitNotPositive => "max_states должно быть положительным"

def defaultAlphabet : List Symbol := ["0", "1"]

def defaultMaxStates : Nat := 16

/-- Sparse and strict, over `0` and `1`, for at most sixteen states. -/
def default : Config where
  alphabet := defaultAlphabet
  policy := .sparse
  strict := true
  maxStates := some defaultMaxStates
  alphabet_ne_nil := by decide
  alphabet_nodup := by decide
  maxStates_pos := by simp [defaultMaxStates]

instance : Inhabited Config := ⟨default⟩

/-- Checked settings; the policy is still a text and the limit any integer. -/
def make (alphabet : List Symbol) (policy : String) (strict : Bool) (maxStates : Option Int) :
    Except Fault Config :=
  if nonempty : alphabet ≠ [] then
    if nodup : alphabet.Nodup then
      match Policy.ofText? policy with
      | none => .error (.unknownPolicy policy)
      | some policy =>
        if positive : ∀ limit ∈ maxStates, 0 < limit then
          .ok
            { alphabet, policy, strict
              maxStates := maxStates.map Int.toNat
              alphabet_ne_nil := nonempty
              alphabet_nodup := nodup
              maxStates_pos := by
                intro limit member
                obtain ⟨value, present, rfl⟩ := Option.map_eq_some_iff.mp member
                have := positive value present
                omega }
        else .error .limitNotPositive
    else .error (.repeatedSymbols alphabet)
  else .error .emptyAlphabet

end Config

end Determinizer
