import Mathlib.Logic.Basic

/-!
# Computations that may run out of fuel

`Ends o short post` says that a computation runs out of fuel only if `short`, and that its result
satisfies `post` otherwise.
-/

namespace OpsAgent.Lib

variable {α γ : Type*} {o : Option α} {short short' : Prop} {post post' : α → Prop}

def Ends (o : Option α) (short : Prop) (post : α → Prop) : Prop :=
  match o with
  | none => short
  | some x => post x

theorem Ends.bind {f : α → Option γ} {post' : γ → Prop} (ho : Ends o short post)
    (hf : ∀ x, post x → Ends (f x) short post') : Ends (o.bind f) short post' := by
  cases o with
  | none => exact ho
  | some x => exact hf x ho

theorem Ends.map {f : α → γ} {post' : γ → Prop} (ho : Ends o short post)
    (hf : ∀ x, post x → post' (f x)) : Ends (o.map f) short post' := by
  cases o with
  | none => exact ho
  | some x => exact hf x ho

theorem Ends.mono (ho : Ends o short post) (hs : short → short') (hp : ∀ x, post x → post' x) :
    Ends o short' post' := by
  cases o with
  | none => exact hs ho
  | some x => exact hp x ho

theorem Ends.of_some {x : α} (ho : Ends o short post) (h : o=some x) : post x := by
  subst h
  exact ho
theorem Ends.isSome (ho : Ends o short post) (h : ¬short) : o.isSome := by
  cases o with
  | none => exact absurd ho h
  | some x => rfl

section Fallible
variable {ε : Type*} {r : Option (Except ε α)}

def andThen (r : Option (Except ε α)) (f : α → Option (Except ε γ)) : Option (Except ε γ) :=
  match r with
  | none => none
  | some (.error err) => some (.error err)
  | some (.ok x) => f x

def withContext (context : ε → ε) (r : Option (Except ε α)) : Option (Except ε α) :=
  r.map (Except.mapError context)
def Succeeds (r : Option (Except ε α)) (short : Prop) (post : α → Prop) : Prop :=
  Ends r short fun e => ∃ x, e=.ok x ∧ post x

theorem Succeeds.ok {x : α} (h : post x) : Succeeds (some (.ok x : Except ε α)) short post :=
  ⟨x,rfl,h⟩

theorem Succeeds.andThen {f : α → Option (Except ε γ)} {post' : γ → Prop}
    (h : Succeeds r short post) (hf : ∀ x, post x → Succeeds (f x) short post') :
    Succeeds (andThen r f) short post' := by
  cases r with
  | none => exact h
  | some e =>
    obtain ⟨x,rfl,hx⟩ := h
    exact hf x hx

theorem Succeeds.withContext (h : Succeeds r short post) (context : ε → ε) :
    Succeeds (withContext context r) short post := by
  cases r with
  | none => exact h
  | some e =>
    obtain ⟨x,rfl,hx⟩ := h
    exact ⟨x,rfl,hx⟩

theorem Succeeds.mono (h : Succeeds r short post) (hs : short → short')
    (hp : ∀ x, post x → post' x) : Succeeds r short' post' :=
  Ends.mono h hs fun _ ⟨x,hx,hpost⟩ => ⟨x,hx,hp x hpost⟩

theorem Succeeds.exists_ok (h : Succeeds r short post) (hshort : ¬short) :
    ∃ x, r=some (.ok x) ∧ post x := by
  cases r with
  | none => exact absurd h hshort
  | some e =>
    obtain ⟨x,rfl,hx⟩ := h
    exact ⟨x,rfl,hx⟩

end Fallible

end OpsAgent.Lib
