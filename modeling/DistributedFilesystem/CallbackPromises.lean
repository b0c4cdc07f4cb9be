import Mathlib.Data.Set.Insert
import Mathlib.Logic.Function.Basic
import Mathlib.Logic.Relation
import Mathlib.Tactic.Common

/-!
# Callback promises

A server holds a value, and clients read it and keep copies.  When a client
registers, the server promises to notify it of changes: a client that changes
the value first stores it, and the registered clients are notified later.  A
notification takes the copy away from the client that it reaches.

A copy that a client goes on with is the value that the server holds, or the
client is going to be told otherwise, by a notification on its way or by a
client that has yet to have the others notified.
-/

namespace CallbackPromises

/-- What a client has of the value. -/
inductive Holding (Value : Type*) where
  | nothing
  /-- It is registered and has yet to read the value. -/
  | awaiting
  | copy (value : Value)

/-- The value at the server, what each client has of it, the registered clients,
those that a notification is on its way to, and those that stored a value and
have yet to have the others notified. -/
@[ext]
structure State (Client Value : Type*) where
  current : Value
  holding : Client → Holding Value
  registered : Set Client
  waiting : Set Client
  changing : Set Client

variable {Client Value : Type*}

namespace State

variable (σ : State Client Value)

/-- The client will learn of the next change of the value. -/
def Watches (client : Client) : Prop :=
  client ∈ σ.registered ∨ client ∈ σ.waiting

/-- The client will learn that the value has changed. -/
def Told (client : Client) : Prop :=
  client ∈ σ.waiting ∨
    client ∈ σ.registered ∧ ∃ other ∈ σ.changing, other ≠ client

/-- Every client with a copy watches the value, or is about to have the others
notified of it; and its copy is the value, or it will be told otherwise. -/
structure Promised : Prop where
  watches : ∀ client, σ.holding client ≠ .nothing →
    σ.Watches client ∨ client ∈ σ.changing
  upToDate : ∀ client value, σ.holding client = .copy value →
    value = σ.current ∨ σ.Told client

end State

section Promised

variable {σ : State Client Value} {client : Client}

/-- Nobody has a copy yet. -/
theorem promised_of_nothing (nothing : ∀ client, σ.holding client = .nothing) :
    σ.Promised where
  watches client holds := (holds (nothing client)).elim
  upToDate client value copies := by simp [nothing client] at copies

/-- Once all changes have been notified and the notifications have reached the
client, its copy is the value that the server holds. -/
theorem current_of_promised (promised : σ.Promised) {value : Value}
    (copies : σ.holding client = .copy value) (received : client ∉ σ.waiting)
    (settled : ∀ other, other ∉ σ.changing) : value = σ.current := by
  rcases promised.upToDate client value copies with
    current | waits | ⟨-, changer, changes, -⟩
  · exact current
  · exact (received waits).elim
  · exact (settled changer changes).elim

theorem promised_register (promised : σ.Promised) (client : Client) :
    State.Promised { σ with registered := insert client σ.registered } where
  watches other holds :=
    (promised.watches other holds).imp_left (Or.imp_left .inr)
  upToDate other value copies :=
    (promised.upToDate other value copies).imp_right
      (Or.imp_right (And.imp_left .inr))

/-- After the others were notified, a registered client waits for its
notification; an unregistered one has stored the value itself. -/
theorem promised_notified (promised : σ.Promised) {waiting : Set Client}
    {registered : Set Client} (keeps : σ.waiting ⊆ waiting)
    (told : ∀ other ∈ σ.registered, other ≠ client → other ∈ waiting)
    (watched : σ.holding client ≠ .nothing →
      client ∈ registered ∨ client ∈ waiting)
    (stays : σ.holding client ≠ .nothing → client ∈ σ.registered →
      client ∈ registered) :
    State.Promised { σ with
      registered := registered
      waiting := waiting
      changing := σ.changing \ {client} } := by
  constructor
  · intro other holds
    by_cases same : other = client
    · subst same
      exact .inl (watched holds)
    · rcases promised.watches other holds with (isRegistered | waits) | changing
      · exact .inl (.inr (told other isRegistered same))
      · exact .inl (.inr (keeps waits))
      · exact .inr ⟨changing, same⟩
  · intro other value copies
    rcases promised.upToDate other value copies with
      current | waits | ⟨isRegistered, changer, changes, different⟩
    · exact .inl current
    · exact .inr (.inl (keeps waits))
    · right
      by_cases same : other = client
      · subst same
        have holds : σ.holding other ≠ .nothing := fun nothing => by
          simp [nothing] at copies
        exact .inr ⟨stays holds isRegistered, changer, ⟨changes, different⟩,
          different⟩
      · exact .inl (told other isRegistered same)

theorem promised_take (promised : σ.Promised)
    (upToDate : σ.holding client = .nothing ∨ client ∈ σ.registered ∧
      ∀ value, σ.holding client = .copy value → value = σ.current) :
    State.Promised { σ with waiting := σ.waiting \ {client} } := by
  constructor
  · intro other holds
    by_cases same : other = client
    · subst same
      obtain ⟨registered, -⟩ := upToDate.resolve_left holds
      exact .inl (.inl registered)
    · exact (promised.watches other holds).imp_left
        (Or.imp_right fun waits => ⟨waits, same⟩)
  · intro other value copies
    by_cases same : other = client
    · subst same
      have holds : σ.holding other ≠ .nothing := fun nothing => by
        simp [nothing] at copies
      obtain ⟨-, current⟩ := upToDate.resolve_left holds
      exact .inl (current value copies)
    · exact (promised.upToDate other value copies).imp_right
        (Or.imp_left fun waits => ⟨waits, same⟩)

end Promised

variable [DecidableEq Client]

/-- The client has something else of the value from now on. -/
def State.hold (σ : State Client Value) (client : Client)
    (holding : Holding Value) : State Client Value :=
  { σ with holding := Function.update σ.holding client holding }

/-- The steps of the protocol. -/
inductive Step : State Client Value → State Client Value → Prop
  | forget {σ} (client : Client) : Step σ (σ.hold client .nothing)
  | register {σ} (client : Client) :
      Step σ { σ with registered := insert client σ.registered }
  | await {σ} (client : Client) (registered : client ∈ σ.registered) :
      Step σ (σ.hold client .awaiting)
  | fetch {σ} (client : Client) (awaits : σ.holding client = .awaiting) :
      Step σ (σ.hold client (.copy σ.current))
  /-- Of the other clients that are about to have a change notified, each that
  keeps a copy watches the value. -/
  | store {σ} (client : Client) (value : Value) (holding : Holding Value)
      (keeps : holding = .nothing ∨ holding = .copy value)
      (watched : ∀ other ∈ σ.changing, other ≠ client →
        σ.holding other ≠ .nothing → σ.Watches other) :
      Step σ { σ.hold client holding with
        current := value
        changing := insert client σ.changing }
  /-- All other registered clients are notified. -/
  | announce {σ} (client : Client) (waiting : Set Client)
      (watched : σ.holding client = .nothing ∨ σ.Watches client)
      (keeps : σ.waiting ⊆ waiting)
      (told : ∀ other ∈ σ.registered, other ≠ client → other ∈ waiting) :
      Step σ { σ with waiting := waiting, changing := σ.changing \ {client} }
  /-- All other registered clients are notified, and nobody is registered any
  more. -/
  | withdraw {σ} (client : Client) (waiting : Set Client)
      (nothing : σ.holding client = .nothing)
      (keeps : σ.waiting ⊆ waiting)
      (told : ∀ other ∈ σ.registered, other ≠ client → other ∈ waiting) :
      Step σ { σ with
        registered := ∅
        waiting := waiting
        changing := σ.changing \ {client} }
  /-- The last notification on its way reaches the client, which goes on with
  nothing, or is registered and goes on with what the server has. -/
  | take {σ} (client : Client)
      (upToDate : σ.holding client = .nothing ∨ client ∈ σ.registered ∧
        ∀ value, σ.holding client = .copy value → value = σ.current) :
      Step σ { σ with waiting := σ.waiting \ {client} }

section Steps

variable {σ τ : State Client Value} {client : Client}

theorem promised_hold (promised : σ.Promised) {holding : Holding Value}
    (watches : holding ≠ .nothing → σ.Watches client ∨ client ∈ σ.changing)
    (upToDate : ∀ value, holding = .copy value → value = σ.current) :
    (σ.hold client holding).Promised := by
  constructor
  · intro other holds
    by_cases same : other = client
    · subst same
      exact watches (by simpa [State.hold] using holds)
    · exact promised.watches other (by simpa [State.hold, same] using holds)
  · intro other value copies
    by_cases same : other = client
    · subst same
      exact .inl (upToDate value (by simpa [State.hold] using copies))
    · exact promised.upToDate other value
        (by simpa [State.hold, same] using copies)

theorem promised_store (promised : σ.Promised) {value : Value}
    {holding : Holding Value}
    (keeps : holding = .nothing ∨ holding = .copy value)
    (watched : ∀ other ∈ σ.changing, other ≠ client →
      σ.holding other ≠ .nothing → σ.Watches other) :
    State.Promised { σ.hold client holding with
      current := value
      changing := insert client σ.changing } := by
  constructor
  · intro other holds
    by_cases same : other = client
    · exact .inr (.inl same)
    · have held : σ.holding other ≠ .nothing := by
        simpa [State.hold, same] using holds
      exact (promised.watches other held).imp_right .inr
  · intro other stale copies
    by_cases same : other = client
    · subst same
      have isHolding : holding = .copy stale := by
        simpa [State.hold] using copies
      left
      rcases keeps with nothing | copy
      · simp [nothing] at isHolding
      · simpa [copy, eq_comm] using isHolding
    · have held : σ.holding other = .copy stale := by
        simpa [State.hold, same] using copies
      have holds : σ.holding other ≠ .nothing := by simp [held]
      have watches : σ.Watches other := by
        rcases promised.watches other holds with watches | changing
        · exact watches
        · exact watched other changing same holds
      right
      rcases watches with registered | waits
      · exact .inr ⟨registered, client, .inl rfl, Ne.symm same⟩
      · exact .inl waits

theorem promised_of_step (promised : σ.Promised) (steps : Step σ τ) :
    τ.Promised := by
  cases steps with
  | forget client => exact promised_hold promised (by simp) (by simp)
  | register client => exact promised_register promised client
  | await client registered =>
      exact promised_hold promised (fun _ => .inl (.inl registered)) (by simp)
  | fetch client awaits =>
      have holds : σ.holding client ≠ .nothing := by simp [awaits]
      exact promised_hold promised (fun _ => promised.watches client holds)
        (by simp +contextual [eq_comm])
  | store client value holding keeps watched =>
      exact promised_store promised keeps watched
  | announce client waiting watched keeps told =>
      refine promised_notified promised keeps told ?_ fun _ => id
      intro holds
      exact (watched.resolve_left holds).imp_right (@keeps client)
  | withdraw client waiting nothing keeps told =>
      exact promised_notified promised keeps told
        (fun holds => (holds nothing).elim) fun holds => (holds nothing).elim
  | take client upToDate => exact promised_take promised upToDate

/-- A client may go on with what it has, or with nothing. -/
theorem steps_hold {holding : Holding Value}
    (keeps : holding = σ.holding client ∨ holding = .nothing) :
    Relation.ReflTransGen Step σ (σ.hold client holding) := by
  rcases keeps with rfl | rfl
  · have same : σ.hold client (σ.holding client) = σ := by simp [State.hold]
    rw [same]
  · exact .single (.forget client)

/-- A client may register itself and then have the others notified. -/
theorem steps_registering (client : Client) {waiting : Set Client}
    (keeps : σ.waiting ⊆ waiting)
    (told : ∀ other ∈ σ.registered, other ≠ client → other ∈ waiting) :
    Relation.ReflTransGen Step σ
      { σ with
        registered := insert client σ.registered
        waiting := waiting
        changing := σ.changing \ {client} } := by
  have registers : Step σ
      { σ with registered := insert client σ.registered } :=
    .register client
  refine (Relation.ReflTransGen.single registers).tail
    (.announce client waiting ?_ keeps ?_)
  · exact .inr (.inl (Set.mem_insert _ _))
  · rintro other (rfl | before) different
    · exact (different rfl).elim
    · exact told other before different

theorem promised_of_steps (promised : σ.Promised)
    (steps : Relation.ReflTransGen Step σ τ) : τ.Promised := by
  induction steps with
  | refl => exact promised
  | tail _ last ih => exact promised_of_step ih last

end Steps

end CallbackPromises
