import Mathlib
import SqlCompose.Proofs.Keeping
import SqlCompose.Session.State

/-!
# What leaves a session alone

Reading what a session holds, and building, give out labels and log records, and change nothing else: the variables and the objects stay as they are.
-/

namespace SqlCompose

namespace Act

variable {α β : Type} {action : Act α}

/-- The session, with whatever has been given out and logged in the meantime. -/
def Since (session : Session) (_ : Unit) (after : Session) : Prop :=
  ∃ trace, after = { session with trace }

/-- The computation leaves a session as it is, and has results of some sort. -/
abbrev Leaves (session : Session) (action : Act α) (result : α → Prop) : Prop :=
  Keeps (Since session) () action fun _ value => result value

/-- The computation leaves every session as it is. -/
def Steady (action : Act α) : Prop :=
  ∀ session, Leaves session action fun _ => True

theorem since (session : Session) : Since session () session :=
  ⟨session.trace, rfl⟩

theorem leaves_build (session : Session) (action : Build α) : Leaves session (build action) fun _ => True :=
  fun _ _ after here => ⟨(), trivial, by obtain ⟨_, rfl⟩ := here; exact ⟨_, rfl⟩, fun _ _ => trivial⟩

theorem leaves_get (session : Session) : Leaves session (get : Act Session) (Since session ()) :=
  fun _ _ _ here => ⟨(), trivial, here, fun _ same => by cases same; exact here⟩

/-- What is made of a result does not matter to the session. -/
theorem state_map (action : Act α) (f : α → β) (session : Session) :
    ((action >>= fun value => pure (f value)).run session).2 = (action.run session).2 := by
  change (ExceptT.bindCont (fun value => (pure (f value) : Act β)) (action.run session).1 (action.run session).2).2 = _
  cases (action.run session).1 <;> rfl

end Act

end SqlCompose
