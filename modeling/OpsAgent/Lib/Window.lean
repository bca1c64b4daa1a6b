import Mathlib.Data.List.Basic

/-!
# Objects that collect, push and reset

Such an object takes values one by one, hands out what it has collected and is then cleared; a value
can come in between.
-/

namespace OpsAgent.Lib.Window
open List Bool

variable {A M R : Type*}

structure Object (A M R : Type*) where
  add : A → M → A
  push : A → R
  reset : A → A

inductive Event (M R : Type*) where
  | added (m : M)
  | pushed (r : R)
  | reset

/-- The events take the object from one state to another. The flag says that it
has been pushed and not reset yet. -/
inductive Object.Run (w : Object A M R) : A × Bool → List (Event M R) → A × Bool → Prop
  | nil (s) : w.Run s [] s
  | added (a p m es t) : w.Run (w.add a m,p) es t → w.Run (a,p) (.added m::es) t
  | pushed (a es t) : w.Run (a,true) es t → w.Run (a,false) (.pushed (w.push a)::es) t
  | reset (a es t) : w.Run (w.reset a,false) es t → w.Run (a,true) (.reset::es) t

def apart : Bool → List (Event M R) → Bool
  | _, [] => true
  | p, .added _::es => !p&&apart p es
  | _, .pushed _::es => apart true es
  | _, .reset::es => apart false es

def added : List (Event M R) → List M
  | [] => []
  | .added m::es => m::added es
  | _::es => added es
def emissions : List (Event M R) → List R
  | [] => []
  | .pushed r::es => r::emissions es
  | _::es => emissions es

def windows (cur : List M) : List (Event M R) → List (List M)
  | [] => []
  | .added m::es => windows (cur++[m]) es
  | .pushed _::es => cur::windows [] es
  | .reset::es => windows cur es

def openWindow (cur : List M) : List (Event M R) → List M
  | [] => cur
  | .added m::es => openWindow (cur++[m]) es
  | .pushed _::es => openWindow [] es
  | .reset::es => openWindow cur es

theorem windows_partition (cur : List M) (es : List (Event M R)) :
    (windows cur es).flatten++openWindow cur es=cur++added es := by
  induction es generalizing cur with
  | nil => simp [windows,openWindow,added]
  | cons e es ih =>
    cases e with
    | added m =>
      have htail:=ih (cur++[m])
      simpa only [windows,openWindow,added,append_assoc,singleton_append] using htail
    | pushed r =>
      have htail:=ih []
      simp [windows,openWindow,added,htail]
    | reset => exact ih cur

theorem emissions_eq_windows (w : Object A M R) (fresh : A)
    (hreset : ∀ ms : List M, w.reset (ms.foldl w.add fresh)=fresh) {es : List (Event M R)}
    {s t : A × Bool} (h : w.Run s es t) (cur : List M) (hapart : apart s.2 es)
    (hs : if s.2 then cur=[] ∧ w.reset s.1=fresh else s.1=cur.foldl w.add fresh) :
    emissions es=(windows cur es).map fun ms => w.push (ms.foldl w.add fresh) := by
  induction h generalizing cur with
  | nil s => rfl
  | added a p m es t _ ih =>
    cases p with
    | true => cases hapart
    | false =>
      refine ih (cur++[m]) hapart ?_
      have ha : a=cur.foldl w.add fresh := hs
      simp [ha]
  | pushed a es t _ ih =>
    have ha : a=cur.foldl w.add fresh := hs
    have htail:=ih [] hapart ⟨rfl,by rw [ha]; exact hreset cur⟩
    simp [emissions,windows,htail,ha]
  | reset a es t _ ih =>
    obtain ⟨hcur,ha⟩ : cur=[] ∧ w.reset a=fresh := hs
    refine ih cur hapart ?_
    simp [hcur,ha]

/-! ### Calls in any order

Here handing out may change the object, or fail, and need not be followed by a reset. -/

structure Machine (A M R : Type*) where
  add : A → M → A
  push : A → Option (A × R)
  reset : A → A

inductive Call (M : Type*) where
  | add (m : M)
  | push | reset

def Machine.pushes (w : Machine A M R) (a : A) (cur : List M) : List (Call M) → List (List M × R)
  | [] => []
  | .add m::cs => w.pushes (w.add a m) (cur++[m]) cs
  | .push::cs => match w.push a with
    | none => []
    | some (b,r) => (cur,r)::w.pushes b cur cs
  | .reset::cs => w.pushes (w.reset a) [] cs

def sinceReset (cur : List M) : List (Call M) → List (List M)
  | [] => []
  | .add m::cs => sinceReset (cur++[m]) cs
  | .push::cs => cur::sinceReset cur cs
  | .reset::cs => sinceReset [] cs

theorem Machine.pushes_spec (w : Machine A M R) (Rep : A → List M → Prop) (P : List M → R → Prop)
    (hadd : ∀ a ms m, Rep a ms → Rep (w.add a m) (ms++[m]))
    (hpush : ∀ a ms b r, Rep a ms → w.push a=some (b,r) → Rep b ms ∧ P ms r)
    (hreset : ∀ a ms, Rep a ms → Rep (w.reset a) []) {a : A} {cur : List M} (h : Rep a cur)
    (cs : List (Call M)) : ∀ x∈w.pushes a cur cs, x.1∈sinceReset cur cs ∧ P x.1 x.2 := by
  induction cs generalizing a cur with
  | nil => exact fun x hx => absurd hx not_mem_nil
  | cons c cs ih =>
    cases c with
    | add m => exact ih (hadd a cur m h)
    | reset => exact ih (hreset a cur h)
    | push =>
      intro x hx
      rw [Machine.pushes] at hx
      split at hx
      · exact absurd hx not_mem_nil
      next b r hbr =>
        obtain ⟨hb,hp⟩ := hpush a cur b r h hbr
        rcases mem_cons.mp hx with rfl | hx
        · exact ⟨mem_cons_self,hp⟩
        · obtain ⟨hin,hx⟩ := ih hb x hx
          exact ⟨mem_cons_of_mem cur hin,hx⟩

end OpsAgent.Lib.Window
