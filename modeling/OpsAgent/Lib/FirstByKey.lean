import Mathlib.Data.List.Induction
import Mathlib.Data.List.Pairwise

/-!
# The first entry of each key

A loop that keeps an entry unless its key was seen: read from the end, the list filtered by
`pwFilter`.
-/

namespace OpsAgent.Lib.FirstByKey
open List

variable {α : Type*} {κ : Type*} [DecidableEq κ] (key : α → κ)

def keep (acc : List κ × List α) (a : α) : List κ × List α :=
  if key a∈acc.1 then acc else (key a::acc.1,acc.2++[a])

/- The entries that are kept, the last one first, and in their order. -/
def lasts (as : List α) : List α := pwFilter (fun a b => key a≠key b) as
def firsts (as : List α) : List α := (lasts key as.reverse).reverse

theorem foldl_keep (as : List α) :
    as.foldl (keep key) ([],[])=((lasts key as.reverse).map key,firsts key as) := by
  induction as using List.reverseRecOn with
  | nil => rfl
  | append_singleton as a ih =>
    rw [foldl_append,ih,foldl_cons,foldl_nil,keep,firsts,firsts,reverse_concat]
    dsimp only
    split
    next h =>
      obtain ⟨b,hb,hkey⟩ := mem_map.mp h
      rw [lasts,lasts,pwFilter_cons_of_neg fun hall => hall b hb hkey.symm]
    next h =>
      have hall : ∀ b∈lasts key as.reverse, key a≠key b := fun b hb heq => h (heq ▸ mem_map_of_mem hb)
      rw [lasts,lasts,pwFilter_cons_of_pos hall,map_cons,reverse_cons]

variable {key} {A P B : List α} {a b : α}

theorem mem_of_mem_firsts (h : a∈firsts key B) : a∈B :=
  mem_reverse.mp (pwFilter_subset _ (mem_reverse.mp h))
theorem key_unique (ha : a∈firsts key B) (hb : b∈firsts key B) (hkey : key a=key b) : a=b := by
  have hsymm : Std.Symm fun a b => key a≠key b := ⟨fun _ _ => Ne.symm⟩
  by_contra hne
  exact (pairwise_pwFilter B.reverse).forall (mem_reverse.mp ha) (mem_reverse.mp hb) hne hkey

theorem lasts_insert_one (h : ∀ b∈A++B, key b≠key a) :
    (lasts key (A++a::B)).Perm (a::lasts key (A++B)) := by
  induction A with
  | nil => exact .of_eq (pwFilter_cons_of_pos fun b hb => (h b (pwFilter_subset _ hb)).symm)
  | cons b A ih =>
    obtain ⟨hb,h⟩ := forall_mem_cons.mp h
    have hperm:=ih h
    by_cases hall : ∀ c∈lasts key (A++B), key b≠key c
    · have hall' : ∀ c∈lasts key (A++a::B), key b≠key c := by
        intro c hc
        rcases mem_cons.mp (hperm.mem_iff.mp hc) with rfl | hc
        · exact hb
        · exact hall c hc
      rw [cons_append,cons_append,lasts,lasts,pwFilter_cons_of_pos hall,pwFilter_cons_of_pos hall']
      exact (hperm.cons b).trans (.swap a b _)
    · have hall' : ¬ ∀ c∈lasts key (A++a::B), key b≠key c := fun h =>
        hall fun c hc => h c (hperm.mem_iff.mpr (mem_cons_of_mem a hc))
      rw [cons_append,cons_append,lasts,lasts,pwFilter_cons_of_neg hall,pwFilter_cons_of_neg hall']
      exact hperm

/-- Entries whose keys occur only once are kept, and the others do not depend on them. -/
theorem firsts_insert (hP : (P.map key).Nodup) (h : ∀ a∈P, ∀ b∈A++B, key b≠key a) :
    (firsts key (A++(P++B))).Perm (P++firsts key (A++B)) := by
  induction P with
  | nil => exact .rfl
  | cons a P ih =>
    obtain ⟨ha,hP⟩ := nodup_cons.mp hP
    obtain ⟨haB,h⟩ := forall_mem_cons.mp h
    have hother : ∀ b∈(P++B).reverse++A.reverse, key b≠key a := by
      intro b hb
      rw [← reverse_append,mem_reverse,mem_append,mem_append] at hb
      rcases hb with hb | hb | hb
      · exact haB b (mem_append_left B hb)
      · exact fun heq => ha (heq ▸ mem_map_of_mem hb)
      · exact haB b (mem_append_right A hb)
    have hone:=lasts_insert_one hother
    rw [← reverse_append] at hone
    refine .trans ?_ ((ih hP h).cons a)
    rw [firsts,reverse_append,cons_append,reverse_cons,append_assoc]
    exact (reverse_perm _).trans (hone.trans ((reverse_perm _).symm.cons a))

end OpsAgent.Lib.FirstByKey
