import Determinizer.Event

/-! # Results with the events on the way

A computation ends with a value or an error and has reported events until then. An error ends it;
the events before the error stay.
-/

namespace Determinizer

structure Outcome (ε α : Type) where
  events : List Event
  result : Except ε α

namespace Outcome

variable {ε α β : Type}

def pure (value : α) : Outcome ε α := ⟨[], .ok value⟩

def bind (first : Outcome ε α) (next : α → Outcome ε β) : Outcome ε β :=
  match first.result with
  | .error cause => ⟨first.events, .error cause⟩
  | .ok value =>
    let rest := next value
    ⟨first.events ++ rest.events, rest.result⟩

instance : Monad (Outcome ε) where
  pure := pure
  bind := bind

/-- Ends with an error. -/
def fail (cause : ε) : Outcome ε α := ⟨[], .error cause⟩

/-- Reports events and goes on. -/
def report (events : List Event) : Outcome ε Unit := ⟨events, .ok ()⟩

def ofExcept (result : Except ε α) : Outcome ε α := ⟨[], result⟩

/-- The same events and value, with another kind of error. -/
def mapError {ε' : Type} (convert : ε → ε') (outcome : Outcome ε α) : Outcome ε' α :=
  ⟨outcome.events, outcome.result.mapError convert⟩

@[simp] theorem events_pure (value : α) : (Pure.pure value : Outcome ε α).events = [] := rfl

@[simp] theorem result_pure (value : α) : (Pure.pure value : Outcome ε α).result = .ok value := rfl

theorem result_bind (first : Outcome ε α) (next : α → Outcome ε β) :
    (first >>= next).result = first.result.bind fun value => (next value).result := by
  change (bind first next).result = _
  unfold bind
  split <;> rename_i same <;> simp [same, Except.bind]

/-- What comes first has reported its events before the rest. -/
theorem bind_of_ok {first : Outcome ε α} {value : α} (ended : first.result = .ok value)
    (next : α → Outcome ε β) :
    (first >>= next) = ⟨first.events ++ (next value).events, (next value).result⟩ := by
  change bind first next = _
  rw [bind, ended]

/-- After an error nothing more is done. -/
theorem bind_of_error {first : Outcome ε α} {cause : ε} (ended : first.result = .error cause)
    (next : α → Outcome ε β) : (first >>= next) = ⟨first.events, .error cause⟩ := by
  change bind first next = _
  rw [bind, ended]

theorem bind_assoc {γ : Type} (first : Outcome ε α) (next : α → Outcome ε β)
    (last : β → Outcome ε γ) :
    (first >>= next >>= last) = (first >>= fun value => next value >>= last) := by
  cases ended : first.result with
  | error cause => rw [bind_of_error ended, bind_of_error ended, bind_of_error rfl]
  | ok value =>
    rw [bind_of_ok ended, bind_of_ok ended]
    cases later : (next value).result with
    | error cause => rw [bind_of_error later, bind_of_error rfl]
    | ok made => rw [bind_of_ok later, bind_of_ok rfl, List.append_assoc]

theorem result_bind_eq_ok_iff {first : Outcome ε α} {next : α → Outcome ε β} {result : β} :
    (first >>= next).result = .ok result ↔
      ∃ value, first.result = .ok value ∧ (next value).result = .ok result := by
  rw [result_bind]
  cases first.result <;> simp [Except.bind]

@[simp] theorem result_mapError_eq_ok_iff {ε' : Type} {convert : ε → ε'} {outcome : Outcome ε α}
    {value : α} : (outcome.mapError convert).result = .ok value ↔ outcome.result = .ok value := by
  rw [mapError]
  cases outcome.result with
  | error cause =>
    change (Except.error (convert cause) : Except ε' α) = .ok value ↔ _
    simp
  | ok made =>
    change (Except.ok made : Except ε' α) = .ok value ↔ _
    rw [Except.ok.injEq, Except.ok.injEq]

@[simp] theorem result_fail (cause : ε) : (fail cause : Outcome ε α).result = .error cause := rfl

@[simp] theorem result_ofExcept (result : Except ε α) : (ofExcept result).result = result := rfl

@[simp] theorem ofExcept_ok_bind (value : α) (next : α → Outcome ε β) :
    (ofExcept (.ok value) >>= next) = next value := rfl

/-- Reporting does not change how the rest ends. -/
@[simp] theorem result_report_bind (events : List Event) (next : Unit → Outcome ε α) :
    (report events >>= next).result = (next ()).result :=
  result_bind ..

end Outcome

end Determinizer
