import Mathlib.Data.List.Forall2
import Mathlib.Logic.Relation
import Mathlib.Order.WellFounded
import Flow123d.Library.Numerals

/-!
# Recursive procedures

The body of a recursive procedure returns, throws, or calls the procedure and goes on with
the reply. It is a tree, so that what is said about all its calls is an induction. A run is
limited in the depth of its calls.
-/

set_option autoImplicit false

namespace Flow123d.Library

inductive Body (ι ρ ε α : Type) where
  | ret (value : α)
  | throw (error : ε)
  | call (argument : ι) (next : ρ → Body ι ρ ε α)

namespace Body

variable {ι ρ ε α β : Type}

def bind : Body ι ρ ε α → (α → Body ι ρ ε β) → Body ι ρ ε β
  | .ret value, after => after value
  | .throw error, _ => .throw error
  | .call argument next, after => .call argument fun reply => (next reply).bind after

instance : Monad (Body ι ρ ε) where
  pure := .ret
  bind := bind

def lift : Except ε α → Body ι ρ ε α
  | .ok value => .ret value
  | .error error => .throw error

/-- One item after the other. -/
def collect (item : β → Body ι ρ ε α) : List β → Body ι ρ ε (List α)
  | [] => pure []
  | first :: rest => do
      let value ← item first
      let values ← collect item rest
      pure (value :: values)

/-- The run with the replies to its calls; a reply may not be known. -/
def run (reply : ι → Option (Except ε ρ)) : Body ι ρ ε α → Option (Except ε α)
  | .ret value => some (.ok value)
  | .throw error => some (.error error)
  | .call argument next =>
      match reply argument with
      | none => none
      | some (.error error) => some (.error error)
      | some (.ok value) => (next value).run reply

theorem run_mono {fewer more : ι → Option (Except ε ρ)}
    (grows : ∀ argument result, fewer argument = some result → more argument = some result)
    {body : Body ι ρ ε α} {result : Except ε α} (ran : body.run fewer = some result) :
    body.run more = some result := by
  induction body with
  | ret value => exact ran
  | throw error => exact ran
  | call argument next ih =>
      rw [run] at ran ⊢
      cases replied : fewer argument with
      | none =>
          rw [replied] at ran
          cases ran
      | some reply =>
          rw [grows argument reply replied]
          rw [replied] at ran
          cases reply with
          | error error => exact ran
          | ok value => exact ih value ran

/-! ## All calls and errors of a body -/

/-- Whatever the replies, the body makes only such calls and throws only such errors. -/
def Within (calls : ι → Prop) (errors : ε → Prop) : Body ι ρ ε α → Prop
  | .ret _ => True
  | .throw error => errors error
  | .call argument next => calls argument ∧ ∀ reply, (next reply).Within calls errors

variable {calls : ι → Prop} {errors : ε → Prop}

theorem Within.mono {more : ι → Prop} {others : ε → Prop} {body : Body ι ρ ε α}
    (within : body.Within calls errors) (allowed : ∀ argument, calls argument → more argument)
    (thrown : ∀ error, errors error → others error) : body.Within more others := by
  induction body with
  | ret value => trivial
  | throw error => exact thrown error within
  | call argument next ih =>
      exact ⟨allowed argument within.1, fun reply => ih reply (within.2 reply)⟩

theorem Within.bind {body : Body ι ρ ε α} {after : α → Body ι ρ ε β}
    (first : body.Within calls errors) (rest : ∀ value, (after value).Within calls errors) :
    (body >>= after).Within calls errors := by
  induction body with
  | ret value => exact rest value
  | throw error => exact first
  | call argument next ih => exact ⟨first.1, fun reply => ih reply (first.2 reply)⟩

theorem Within.lift {outcome : Except ε α}
    (allowed : ∀ error, outcome = .error error → errors error) :
    (lift outcome : Body ι ρ ε α).Within calls errors := by
  cases outcome with
  | ok value => trivial
  | error error => exact allowed error rfl

theorem Within.collect {item : β → Body ι ρ ε α} {items : List β}
    (each : ∀ one ∈ items, (item one).Within calls errors) :
    (collect item items).Within calls errors := by
  induction items with
  | nil => trivial
  | cons first rest ih =>
      refine (each first List.mem_cons_self).bind fun value => ?_
      exact (ih fun one member => each one (List.mem_cons_of_mem first member)).bind
        fun values => trivial

/-! ## What a body returns -/

/-- With replies as in `replies`, the body returns only values as in `post`. -/
def Returns (replies : ι → ρ → Prop) (post : α → Prop) : Body ι ρ ε α → Prop
  | .ret value => post value
  | .throw _ => True
  | .call argument next => ∀ reply, replies argument reply → (next reply).Returns replies post

variable {replies : ι → ρ → Prop}

theorem Returns.mono {post weaker : α → Prop} {body : Body ι ρ ε α}
    (returns : body.Returns replies post) (weakens : ∀ value, post value → weaker value) :
    body.Returns replies weaker := by
  induction body with
  | ret value => exact weakens value returns
  | throw error => trivial
  | call argument next ih => exact fun reply replied => ih reply (returns reply replied)

/-- Where more is known of the replies, the body returns the same. -/
theorem Returns.of_known {known : ι → ρ → Prop} {post : α → Prop} {body : Body ι ρ ε α}
    (returns : body.Returns replies post)
    (holds : ∀ argument reply, known argument reply → replies argument reply) :
    body.Returns known post := by
  induction body with
  | ret value => exact returns
  | throw error => trivial
  | call argument next ih =>
      exact fun reply replied => ih reply (returns reply (holds argument reply replied))

theorem Returns.bind {post : α → Prop} {final : β → Prop} {body : Body ι ρ ε α}
    {after : α → Body ι ρ ε β} (first : body.Returns replies post)
    (rest : ∀ value, post value → (after value).Returns replies final) :
    (body >>= after).Returns replies final := by
  induction body with
  | ret value => exact rest value first
  | throw error => trivial
  | call argument next ih => exact fun reply replied => ih reply (first reply replied)

theorem Returns.lift {post : α → Prop} {outcome : Except ε α}
    (meets : ∀ value, outcome = .ok value → post value) :
    (lift outcome : Body ι ρ ε α).Returns replies post := by
  cases outcome with
  | ok value => exact meets value rfl
  | error error => trivial

theorem Returns.collect {relation : β → α → Prop} {item : β → Body ι ρ ε α} {items : List β}
    (each : ∀ one ∈ items, (item one).Returns replies (relation one)) :
    (collect item items).Returns replies (List.Forall₂ relation items) := by
  induction items with
  | nil => exact .nil
  | cons first rest ih =>
      refine (each first List.mem_cons_self).bind fun value related => ?_
      exact (ih fun one member => each one (List.mem_cons_of_mem first member)).bind
        fun values others => .cons related others

theorem Returns.of_run {post : α → Prop} {reply : ι → Option (Except ε ρ)}
    {body : Body ι ρ ε α} {value : α} (returns : body.Returns replies post)
    (known : ∀ argument value, reply argument = some (.ok value) → replies argument value)
    (ran : body.run reply = some (.ok value)) : post value := by
  induction body with
  | ret returned =>
      cases ran
      exact returns
  | throw error => cases ran
  | call argument next ih =>
      rw [run] at ran
      cases replied : reply argument with
      | none =>
          rw [replied] at ran
          cases ran
      | some result =>
          rw [replied] at ran
          cases result with
          | error error => cases ran
          | ok one => exact ih one (returns one (known argument one replied)) ran

end Body

abbrev Procedure (ι ρ ε : Type) := ι → Body ι ρ ε ρ

namespace Procedure

variable {ι ρ ε α : Type}

/-- The run of a call, with a limit on the depth of the calls in it. -/
def exec (procedure : Procedure ι ρ ε) : ℕ → ι → Option (Except ε ρ)
  | 0, _ => none
  | depth + 1, argument => (procedure argument).run (exec procedure depth)

/-- The call ends with the result. -/
def Ends (procedure : Procedure ι ρ ε) (argument : ι) (result : Except ε ρ) : Prop :=
  ∃ depth, procedure.exec depth argument = some result

/-- The body ends with the result. -/
def Yields (procedure : Procedure ι ρ ε) (body : Body ι ρ ε α) (result : Except ε α) : Prop :=
  ∃ depth, body.run (procedure.exec depth) = some result

variable {procedure : Procedure ι ρ ε}

theorem exec_succ {depth : ℕ} {argument : ι} {result : Except ε ρ}
    (ran : procedure.exec depth argument = some result) :
    procedure.exec (depth + 1) argument = some result := by
  induction depth generalizing argument result with
  | zero => cases ran
  | succ depth ih => exact Body.run_mono (fun _ _ => ih) ran

theorem exec_mono {fewer more : ℕ} (deeper : fewer ≤ more) {argument : ι}
    {result : Except ε ρ} (ran : procedure.exec fewer argument = some result) :
    procedure.exec more argument = some result := by
  induction deeper with
  | refl => exact ran
  | step _ ih => exact exec_succ ih

theorem Yields.unique {body : Body ι ρ ε α} {first second : Except ε α}
    (one : procedure.Yields body first) (two : procedure.Yields body second) :
    first = second := by
  obtain ⟨depth, ran⟩ := one
  obtain ⟨other, also⟩ := two
  have deep := Body.run_mono (fun _ _ => exec_mono (Nat.le_max_left depth other)) ran
  have deeper := Body.run_mono (fun _ _ => exec_mono (Nat.le_max_right depth other)) also
  exact Option.some.inj (deep.symm.trans deeper)

theorem ends_iff_yields {argument : ι} {result : Except ε ρ} :
    procedure.Ends argument result ↔ procedure.Yields (procedure argument) result := by
  constructor
  · rintro ⟨depth, ran⟩
    cases depth with
    | zero => cases ran
    | succ depth => exact ⟨depth, ran⟩
  · rintro ⟨depth, ran⟩
    exact ⟨depth + 1, ran⟩

theorem Ends.unique {argument : ι} {first second : Except ε ρ}
    (one : procedure.Ends argument first) (two : procedure.Ends argument second) :
    first = second :=
  (ends_iff_yields.mp one).unique (ends_iff_yields.mp two)

theorem yields_ret (value : α) : procedure.Yields (.ret value : Body ι ρ ε α) (.ok value) :=
  ⟨0, rfl⟩

theorem yields_throw (error : ε) :
    procedure.Yields (.throw error : Body ι ρ ε α) (.error error) :=
  ⟨0, rfl⟩

theorem yields_call_error {argument : ι} {error : ε} (next : ρ → Body ι ρ ε α)
    (failed : procedure.Ends argument (.error error)) :
    procedure.Yields (.call argument next) (.error error) := by
  obtain ⟨depth, ran⟩ := failed
  refine ⟨depth, ?_⟩
  rw [Body.run, ran]

theorem yields_call_ok {argument : ι} {reply : ρ} {next : ρ → Body ι ρ ε α}
    {result : Except ε α} (replied : procedure.Ends argument (.ok reply))
    (rest : procedure.Yields (next reply) result) :
    procedure.Yields (.call argument next) result := by
  obtain ⟨depth, ran⟩ := replied
  obtain ⟨other, also⟩ := rest
  refine ⟨max depth other, ?_⟩
  rw [Body.run, exec_mono (Nat.le_max_left depth other) ran]
  exact Body.run_mono (fun _ _ => exec_mono (Nat.le_max_right depth other)) also

/-- The rule of recursion: what a body returns if its calls return it. -/
theorem Ends.of_returns {post : ι → ρ → Prop}
    (each : ∀ argument, (procedure argument).Returns post (post argument)) {argument : ι}
    {value : ρ} (ended : procedure.Ends argument (.ok value)) : post argument value := by
  obtain ⟨depth, ran⟩ := ended
  induction depth generalizing argument value with
  | zero => cases ran
  | succ depth ih => exact (each argument).of_run (fun _ _ => ih) ran

/-- The same where the replies are known to be results of the procedure. -/
theorem Ends.of_returns_ends {post : ι → ρ → Prop}
    (each : ∀ argument, (procedure argument).Returns
      (fun called reply => procedure.Ends called (.ok reply) ∧ post called reply)
        (post argument)) {argument : ι} {value : ρ}
    (ended : procedure.Ends argument (.ok value)) : post argument value := by
  obtain ⟨depth, ran⟩ := ended
  induction depth generalizing argument value with
  | zero => cases ran
  | succ depth ih =>
      exact (each argument).of_run (fun _ _ replied => ⟨⟨depth, replied⟩, ih replied⟩) ran

/-! ## Termination -/

theorem yields_of_calls {body : Body ι ρ ε α} {errors : ε → Prop}
    (ends : body.Within (fun argument => ∃ result, procedure.Ends argument result) errors) :
    ∃ result, procedure.Yields body result := by
  induction body with
  | ret value => exact ⟨_, yields_ret value⟩
  | throw error => exact ⟨_, yields_throw error⟩
  | call argument next ih =>
      obtain ⟨⟨result, replied⟩, rest⟩ := ends
      cases result with
      | error error => exact ⟨_, yields_call_error next replied⟩
      | ok reply =>
          obtain ⟨result, yielded⟩ := ih reply (rest reply)
          exact ⟨result, yields_call_ok replied yielded⟩

/-- A procedure whose calls are smaller than its argument ends. -/
theorem ends_of_smaller {smaller : ι → ι → Prop} (founded : WellFounded smaller)
    (decreases : ∀ argument, (procedure argument).Within
      (fun other => smaller other argument) (fun _ => True))
    (argument : ι) : ∃ result, procedure.Ends argument result := by
  induction argument using founded.induction with
  | _ argument ih =>
      obtain ⟨result, yielded⟩ :=
        yields_of_calls ((decreases argument).mono ih fun _ allowed => allowed)
      exact ⟨result, ends_iff_yields.mpr yielded⟩

/-! ## The calls that are made -/

/-- The body makes the call, after calls that have replied. -/
def Makes (procedure : Procedure ι ρ ε) : Body ι ρ ε α → ι → Prop
  | .ret _, _ => False
  | .throw _, _ => False
  | .call argument next, other =>
      other = argument ∨
        ∃ reply, procedure.Ends argument (.ok reply) ∧ Makes procedure (next reply) other

/-- The body throws the error itself, after calls that have replied. -/
def Throws (procedure : Procedure ι ρ ε) : Body ι ρ ε α → ε → Prop
  | .ret _, _ => False
  | .throw error, other => error = other
  | .call argument next, other =>
      ∃ reply, procedure.Ends argument (.ok reply) ∧ Throws procedure (next reply) other

/-- The call is one of those that are made for the first one. -/
def Reaches (procedure : Procedure ι ρ ε) : ι → ι → Prop :=
  Relation.ReflTransGen fun argument other => procedure.Makes (procedure argument) other

theorem yields_error_of_makes {body : Body ι ρ ε α} {argument : ι} {error : ε}
    (made : procedure.Makes body argument) (failed : procedure.Ends argument (.error error)) :
    procedure.Yields body (.error error) := by
  induction body with
  | ret value => cases made
  | throw thrown => cases made
  | call first next ih =>
      rcases made with rfl | ⟨reply, replied, later⟩
      · exact yields_call_error next failed
      · exact yields_call_ok replied (ih reply later)

/-- An error of a call that is reached is the error of the first call. -/
theorem ends_error_of_reaches {argument other : ι} {error : ε}
    (reached : procedure.Reaches argument other) (failed : procedure.Ends other (.error error)) :
    procedure.Ends argument (.error error) := by
  induction reached using Relation.ReflTransGen.head_induction_on with
  | refl => exact failed
  | head made _ ih => exact ends_iff_yields.mpr (yields_error_of_makes made ih)

theorem run_error {depth : ℕ} {body : Body ι ρ ε α} {error : ε}
    (ran : body.run (procedure.exec depth) = some (.error error)) :
    procedure.Throws body error ∨ ∃ argument, procedure.Makes body argument ∧
      procedure.exec depth argument = some (.error error) := by
  induction body with
  | ret value => cases ran
  | throw thrown =>
      cases ran
      exact .inl rfl
  | call argument next ih =>
      rw [Body.run] at ran
      cases replied : procedure.exec depth argument with
      | none =>
          rw [replied] at ran
          cases ran
      | some result =>
          rw [replied] at ran
          cases result with
          | error thrown =>
              cases ran
              exact .inr ⟨argument, .inl rfl, replied⟩
          | ok reply =>
              rcases ih reply ran with thrown | ⟨other, made, failed⟩
              · exact .inl ⟨reply, ⟨depth, replied⟩, thrown⟩
              · exact .inr ⟨other, .inr ⟨reply, ⟨depth, replied⟩, made⟩, failed⟩

/-- An error comes from a call that is reached and throws it itself. -/
theorem exists_throws_of_ends_error {argument : ι} {error : ε}
    (failed : procedure.Ends argument (.error error)) :
    ∃ other, procedure.Reaches argument other ∧
      procedure.Throws (procedure other) error := by
  obtain ⟨depth, ran⟩ := failed
  induction depth generalizing argument with
  | zero => cases ran
  | succ depth ih =>
      rcases run_error ran with thrown | ⟨made, makes, failed⟩
      · exact ⟨argument, .refl, thrown⟩
      · obtain ⟨other, reached, throws⟩ := ih failed
        exact ⟨other, .head makes reached, throws⟩

theorem Throws.allowed {body : Body ι ρ ε α} {calls : ι → Prop} {errors : ε → Prop} {error : ε}
    (throws : procedure.Throws body error) (within : body.Within calls errors) :
    errors error := by
  induction body with
  | ret value => cases throws
  | throw thrown =>
      cases throws
      exact within
  | call argument next ih =>
      obtain ⟨reply, _, later⟩ := throws
      exact ih reply later (within.2 reply)

/-! ## Two procedures -/

section Transfer

variable {other : Procedure ι ρ ε} (escapes : ε → Prop)

/-- Where the calls of the one procedure that reply do so in the other too, unless these fail
with one of some errors, so do the bodies. -/
theorem yields_of_replies {depth : ℕ} {body : Body ι ρ ε α} {value : α}
    (transfer : ∀ argument reply, procedure.exec depth argument = some (.ok reply) →
      other.Ends argument (.ok reply) ∨
        ∃ error, escapes error ∧ other.Ends argument (.error error))
    (ran : body.run (procedure.exec depth) = some (.ok value)) :
    other.Yields body (.ok value) ∨
      ∃ error, escapes error ∧ other.Yields body (.error error) := by
  induction body with
  | ret returned =>
      cases ran
      exact .inl (yields_ret _)
  | throw thrown => cases ran
  | call argument next ih =>
      rw [Body.run] at ran
      cases replied : procedure.exec depth argument with
      | none =>
          rw [replied] at ran
          cases ran
      | some result =>
          rw [replied] at ran
          cases result with
          | error thrown => cases ran
          | ok reply =>
              rcases transfer argument reply replied with ends | ⟨error, allowed, failed⟩
              · rcases ih reply ran with yielded | ⟨error, allowed, failed⟩
                · exact .inl (yields_call_ok ends yielded)
                · exact .inr ⟨error, allowed, yields_call_ok ends failed⟩
              · exact .inr ⟨error, allowed, yields_call_error next failed⟩

/-- And so do the calls that the bodies make. -/
theorem makes_of_replies {body : Body ι ρ ε α} {made : ι}
    (transfer : ∀ argument reply, procedure.Ends argument (.ok reply) →
      other.Ends argument (.ok reply) ∨
        ∃ error, escapes error ∧ other.Ends argument (.error error))
    (makes : procedure.Makes body made) :
    other.Makes body made ∨ ∃ error, escapes error ∧ other.Yields body (.error error) := by
  induction body with
  | ret returned => cases makes
  | throw thrown => cases makes
  | call argument next ih =>
      rcases makes with rfl | ⟨reply, replied, later⟩
      · exact .inl (.inl rfl)
      · rcases transfer argument reply replied with ends | ⟨error, allowed, failed⟩
        · rcases ih reply later with makes | ⟨error, allowed, failed⟩
          · exact .inl (.inr ⟨reply, ends, makes⟩)
          · exact .inr ⟨error, allowed, yields_call_ok ends failed⟩
        · exact .inr ⟨error, allowed, yields_call_error next failed⟩

end Transfer

end Procedure

variable {ι ρ ε α : Type}

/-! ## Bodies in lockstep -/

/-- Both return the same or throw related errors. -/
def SameOutcome (errors : ε → ε → Prop) : Except ε α → Except ε α → Prop
  | .ok value, .ok value' => value = value'
  | .error error, .error error' => errors error error'
  | _, _ => False

/-- Where related calls have the same reply, one as in `replies`, both bodies go on in the same
way. -/
def Body.Lockstep (calls : ι → ι → Prop) (replies : ι → ρ → Prop) (errors : ε → ε → Prop) :
    Body ι ρ ε α → Body ι ρ ε α → Prop
  | .ret value, .ret value' => value = value'
  | .throw error, .throw error' => errors error error'
  | .call argument next, .call argument' next' =>
      calls argument argument' ∧ ∀ reply, replies argument reply →
        Lockstep calls replies errors (next reply) (next' reply)
  | _, _ => False

namespace Body

variable {calls : ι → ι → Prop} {replies : ι → ρ → Prop} {errors : ε → ε → Prop}

theorem Lockstep.bind {β : Type} {body body' : Body ι ρ ε α} {after after' : α → Body ι ρ ε β}
    (first : body.Lockstep calls replies errors body')
    (rest : ∀ value, (after value).Lockstep calls replies errors (after' value)) :
    (body >>= after).Lockstep calls replies errors (body' >>= after') := by
  induction body generalizing body' with
  | ret value =>
      cases body' with
      | ret value' =>
          cases first
          exact rest value
      | throw error => cases first
      | call argument next => cases first
  | throw error =>
      cases body' with
      | ret value => cases first
      | throw error' => exact first
      | call argument next => cases first
  | call argument next ih =>
      cases body' with
      | ret value => cases first
      | throw error => cases first
      | call argument' next' =>
          exact ⟨first.1, fun reply replied => ih reply (first.2 reply replied)⟩

theorem Lockstep.lift (reflexive : ∀ error, errors error error) (outcome : Except ε α) :
    (lift outcome : Body ι ρ ε α).Lockstep calls replies errors (lift outcome) := by
  cases outcome with
  | ok value => exact rfl
  | error error => exact reflexive error

theorem Lockstep.collect {β γ : Type} {item : β → Body ι ρ ε α} {item' : γ → Body ι ρ ε α}
    {items : List β} {items' : List γ}
    (each : List.Forall₂ (fun one one' => (item one).Lockstep calls replies errors (item' one'))
      items items') :
    (collect item items).Lockstep calls replies errors (collect item' items') := by
  induction each with
  | nil => exact rfl
  | cons first _ ih => exact first.bind fun value => ih.bind fun values => rfl

/-- Related replies to related calls lead to related results. -/
theorem Lockstep.run {reply : ι → Option (Except ε ρ)}
    (known : ∀ argument value, reply argument = some (.ok value) → replies argument value)
    (related : ∀ argument argument', calls argument argument' →
      Option.Rel (SameOutcome errors) (reply argument) (reply argument'))
    {body body' : Body ι ρ ε α} (lockstep : body.Lockstep calls replies errors body') :
    Option.Rel (SameOutcome errors) (body.run reply) (body'.run reply) := by
  induction body generalizing body' with
  | ret value =>
      cases body' with
      | ret value' => exact .some lockstep
      | throw error => cases lockstep
      | call argument next => cases lockstep
  | throw error =>
      cases body' with
      | ret value => cases lockstep
      | throw error' => exact .some lockstep
      | call argument next => cases lockstep
  | call argument next ih =>
      cases body' with
      | ret value => cases lockstep
      | throw error => cases lockstep
      | call argument' next' =>
          have answers := related argument argument' lockstep.1
          rw [Body.run, Body.run]
          generalize replied : reply argument = first at answers
          generalize reply argument' = second at answers
          cases answers with
          | none => exact .none
          | @some result result' same =>
              cases result with
              | error error =>
                  cases result' with
                  | error error' => exact .some same
                  | ok value' => cases same
              | ok value =>
                  cases result' with
                  | error error' => cases same
                  | ok value' =>
                      cases same
                      exact ih value (lockstep.2 value (known argument value replied))

end Body

namespace Procedure

variable {procedure : Procedure ι ρ ε}

/-- The rule of bisimulation: if the bodies of related calls are in lockstep, with related calls
again, then related calls end alike. -/
theorem exec_of_lockstep {calls : ι → ι → Prop} {errors : ε → ε → Prop}
    (each : ∀ argument argument', calls argument argument' →
      (procedure argument).Lockstep calls
        (fun argument value => procedure.Ends argument (.ok value)) errors (procedure argument'))
    (depth : ℕ) {argument argument' : ι} (related : calls argument argument') :
    Option.Rel (SameOutcome errors) (procedure.exec depth argument)
      (procedure.exec depth argument') := by
  induction depth generalizing argument argument' with
  | zero => exact .none
  | succ depth ih =>
      exact (each argument argument' related).run (fun _ _ ran => ⟨depth, ran⟩)
        fun _ _ related => ih related

/-- And so do all bodies in lockstep. -/
theorem Yields.of_lockstep {calls : ι → ι → Prop} {errors : ε → ε → Prop}
    (each : ∀ argument argument', calls argument argument' →
      (procedure argument).Lockstep calls
        (fun argument value => procedure.Ends argument (.ok value)) errors (procedure argument'))
    {body body' : Body ι ρ ε α} (lockstep : body.Lockstep calls
      (fun argument value => procedure.Ends argument (.ok value)) errors body')
    {result : Except ε α} (yielded : procedure.Yields body result) :
    ∃ result', procedure.Yields body' result' ∧ SameOutcome errors result result' := by
  obtain ⟨depth, ran⟩ := yielded
  have same := lockstep.run (fun _ _ ran => ⟨depth, ran⟩)
    fun _ _ related => exec_of_lockstep each depth related
  rw [ran] at same
  generalize other : body'.run (procedure.exec depth) = outcome at same
  cases same with
  | some same => exact ⟨_, ⟨depth, other⟩, same⟩

end Procedure

end Flow123d.Library
