import OpsAgent.Gateway.Tunnels
import OpsAgent.Lib.ByteMemory

/-!
# The relay of a tunnel (`Relay` in `gateway/tunnel/tunnel.go`)

`Relay` reads into one buffer and sends what it has read as a slice of its own, which the sender may
keep. A turn here is what a handler of the gateway does from one `select` to the next; there the messages
of all tunnels are followed, here the bytes of one.
-/

namespace OpsAgent.Tunnel
open Lib.GoStrings List Bool
open Lib.ByteMemory

structure ReadResult where
  data : GoString
  err : ReadErr
  fits : data.length≤bufSize

inductive Turn where
  | cancelled | done
  | read (r : ReadResult) (sends : Bool)

structure Relay where
  mem : Memory
  buf : Nat
  -- the slices given to `SendTunnelData`, the first one first
  sent : List Nat
  (closed returned : Bool)

namespace Relay

def start (mem : Memory) : Relay :=
  let m:=make mem bufSize
  ⟨m.1,m.2,[],false,false⟩
def afterRead (s : Relay) : ReadErr → Relay
  | .none | .timeout => s
  | .eof => {s with returned := true}
  | .other => {s with closed := true, returned := true}
def send (s : Relay) (n : Nat) : Relay :=
  let m:=make s.mem n
  {s with mem := fill m.1 m.2 ((read m.1 s.buf).take n), sent := s.sent++[m.2]}

def round (s : Relay) : Turn → Relay
  | .cancelled => {s with closed := true, returned := true}
  | .done => {s with returned := true}
  | .read r sends =>
    let s := {s with mem := fill s.mem s.buf r.data}
    if 0<r.data.length then
      let s:=s.send r.data.length
      if sends then s.afterRead r.err else {s with closed := true, returned := true}
    else s.afterRead r.err

def run (s : Relay) : List Turn → Relay
  | [] => s
  | t::ts => let s:=s.round t
    if s.returned then s else run s ts

end Relay

namespace Turn

def data : Turn → GoString
  | .read r _ => r.data
  | _ => []
def sends : Turn → Bool
  | .read _ sends => sends
  | _ => true
def ends : Turn → Bool
  | .cancelled | .done => true
  | .read r _ => r.err == .eof||r.err == .other
def performed : List Turn → List Turn
  | [] => []
  | t::ts => if t.ends then [t] else t::performed ts

end Turn

namespace Relay

structure Held (s : Relay) : Prop where
  buf : s.buf<s.mem.length
  size : (read s.mem s.buf).length=bufSize
  sent : ∀ a∈s.sent, a<s.mem.length ∧ a≠s.buf

structure Adds (s t : Relay) (data : GoString) : Prop where
  held : Held t
  kept : ∀ a∈s.sent, read t.mem a=read s.mem a
  sent : ∃ new, t.sent=s.sent++new ∧ (new.map (read t.mem)).flatten=data

theorem held_start (mem : Memory) : Held (start mem) := by
  refine ⟨?_,?_,nofun⟩
  · change mem.length<(make mem bufSize).1.length
    rw [length_make]
    omega
  · change (read (make mem bufSize).1 mem.length).length=bufSize
    rw [read_make_self,length_replicate]

variable {s : Relay} {t : Turn}

theorem Held.afterRead (h : Held s) (err : ReadErr) : Held (s.afterRead err) := by
  cases err <;> exact ⟨h.buf,h.size,h.sent⟩

theorem adds_fill (h : Held s) (r : ReadResult) :
    Adds s {s with mem := fill s.mem s.buf r.data} [] := by
  have hlen:=length_fill s.mem s.buf r.data
  refine ⟨⟨by rw [hlen]; exact h.buf,?_,?_⟩,?_,[],(append_nil _).symm,rfl⟩
  · have hfits:=r.fits
    have hsize:=h.size
    change (read (fill s.mem s.buf r.data) s.buf).length=bufSize
    rw [read_fill h.buf,length_append,length_take,length_drop]
    omega
  · intro a ha
    rw [hlen]
    exact h.sent a ha
  · intro a ha
    exact read_fill_of_ne (h.sent a ha).2 r.data

theorem adds_send (h : Held s) {n : Nat} (hn : n≤bufSize) :
    Adds s (s.send n) ((read s.mem s.buf).take n) := by
  have hbuf : read (make s.mem n).1 s.buf=read s.mem s.buf := read_make_of_lt h.buf n
  have hnew : s.mem.length<(make s.mem n).1.length := by
    rw [length_make]
    omega
  have hlen : (s.send n).mem.length=s.mem.length+1 := by
    change (fill _ _ _).length=_
    rw [length_fill,length_make]
  have hold : ∀ a, a<s.mem.length → read (s.send n).mem a=read s.mem a := by
    intro a ha
    change read (fill _ s.mem.length _) a=_
    rw [read_fill_of_ne (Nat.ne_of_lt ha),read_make_of_lt ha]
  refine ⟨⟨?_,?_,?_⟩,fun a ha => hold a (h.sent a ha).1,[s.mem.length],rfl,?_⟩
  · rw [hlen]
    exact Nat.lt_succ_of_lt h.buf
  · rw [show (s.send n).buf=s.buf from rfl,hold s.buf h.buf]
    exact h.size
  · intro a ha
    rw [hlen]
    rcases mem_append.mp ha with ha | ha
    · exact ⟨Nat.lt_succ_of_lt (h.sent a ha).1,(h.sent a ha).2⟩
    · rw [mem_singleton.mp ha]
      exact ⟨Nat.lt_succ_self _,(Nat.ne_of_lt h.buf).symm⟩
  · have hcopy : ((read s.mem s.buf).take n).length=(read (make s.mem n).1 s.mem.length).length := by
      rw [read_make_self,length_replicate,length_take,h.size]
      omega
    change [read (fill (make s.mem n).1 s.mem.length ((read (make s.mem n).1 s.buf).take n))
      s.mem.length].flatten=_
    rw [hbuf,read_fill_self hnew hcopy,flatten_singleton]

theorem Adds.refl (h : Held s) : Adds s s [] :=
  ⟨h,fun _ _ => rfl,[],(append_nil _).symm,rfl⟩

theorem Adds.trans {t u : Relay} {d e : GoString} (h : Adds s t d) (h' : Adds t u e) :
    Adds s u (d++e) := by
  obtain ⟨new,hnew,hd⟩ := h.sent
  obtain ⟨new',hnew',he⟩ := h'.sent
  refine ⟨h'.held,?_,new++new',by rw [hnew',hnew,append_assoc],?_⟩
  · intro a ha
    have hmem : a∈t.sent := by
      rw [hnew]
      exact mem_append_left new ha
    rw [h'.kept a hmem,h.kept a ha]
  · have hsame : new.map (read u.mem)=new.map (read t.mem) := by
      refine map_congr_left fun a ha => h'.kept a ?_
      rw [hnew]
      exact mem_append_right s.sent ha
    rw [map_append,flatten_append,hsame,hd,he]

theorem Adds.afterRead {t : Relay} {d : GoString} (h : Adds s t d) (err : ReadErr) :
    Adds s (t.afterRead err) d := by
  have hheld:=h.held.afterRead err
  cases err <;> exact ⟨hheld,h.kept,h.sent⟩

theorem adds_round (h : Held s) (ht : t.sends) : Adds s (s.round t) t.data := by
  cases t with
  | cancelled | done => exact ⟨⟨h.buf,h.size,h.sent⟩,fun _ _ => rfl,[],(append_nil _).symm,rfl⟩
  | read r sends =>
    have hsends : sends := ht
    have hread:=adds_fill h r
    simp only [round,hsends,if_true]
    split
    · have hsize:=h.size
      have hfits:=r.fits
      have hcut : (read (fill s.mem s.buf r.data) s.buf).take r.data.length=r.data := by
        rw [read_fill h.buf,hsize,take_of_length_le hfits,take_left]
      have hsend:=hread.trans (adds_send hread.held hfits)
      rw [hcut] at hsend
      exact hsend.afterRead r.err
    · rename_i hempty
      have hnil : r.data=[] := length_eq_zero_iff.mp (by omega)
      rw [Turn.data,hnil]
      rw [hnil] at hread
      exact hread.afterRead r.err

theorem returned_round (hs : s.returned=false) (ht : t.sends) : (s.round t).returned=t.ends := by
  have hafter : ∀ (u : Relay) (err : ReadErr), u.returned=false →
      (u.afterRead err).returned=(err == .eof||err == .other) := by
    intro u err hu
    cases err <;> simp [afterRead,hu]
  cases t with
  | cancelled | done => rfl
  | read r sends =>
    have hsends : sends := ht
    simp only [round,hsends,if_true]
    split
    · exact hafter _ r.err hs
    · exact hafter _ r.err hs

theorem adds_run (h : Held s) (hs : s.returned=false) {ts : List Turn}
    (hts : ∀ t∈ts, t.sends) : Adds s (s.run ts) ((Turn.performed ts).flatMap Turn.data) := by
  induction ts generalizing s with
  | nil => exact Adds.refl h
  | cons t ts ih =>
    have ht:=hts t mem_cons_self
    have hround:=adds_round h ht
    have hret:=returned_round hs ht
    rw [run,Turn.performed]
    by_cases hends : t.ends
    · rw [if_pos (hret.trans hends),if_pos hends,flatMap_singleton]
      exact hround
    · rw [if_neg (by rw [hret]; exact hends),if_neg hends,flatMap_cons]
      rw [not_eq_true] at hends
      exact hround.trans (ih hround.held (hret.trans hends) fun u hu => hts u (mem_cons_of_mem t hu))

theorem run_append (s : Relay) (ts us : List Turn) (hs : s.returned=false) :
    s.run (ts++us) = if (s.run ts).returned then s.run ts else (s.run ts).run us := by
  induction ts generalizing s with
  | nil => rw [nil_append,run,if_neg (by rw [hs]; nofun)]
  | cons t ts ih =>
    rw [cons_append,run,run]
    cases hr : (s.round t).returned with
    | true => simp [hr]
    | false =>
      simp only [false_eq_true,if_false]
      exact ih (s.round t) hr

/-- The slices that were sent hold what was read, in order, and none has changed since. -/
theorem relay_sends_bytes_read (mem : Memory) (ts : List Turn) (hts : ∀ t∈ts, t.sends=true) :
    (((start mem).run ts).sent.map (read ((start mem).run ts).mem)).flatten =
        (Turn.performed ts).flatMap Turn.data ∧ ∀ us vs, ts=us++vs → ∀ a∈((start mem).run us).sent,
        read ((start mem).run ts).mem a=read ((start mem).run us).mem a := by
  constructor
  · obtain ⟨new,hnew,hdata⟩ := (adds_run (held_start mem) rfl hts).sent
    rw [hnew,show (start mem).sent=[] from rfl,nil_append]
    exact hdata
  · rintro us vs rfl a ha
    have hus : ∀ t∈us, t.sends=true := fun t ht => hts t (mem_append_left vs ht)
    have hvs : ∀ t∈vs, t.sends=true := fun t ht => hts t (mem_append_right us ht)
    rw [run_append _ us vs rfl]
    split
    · rfl
    · rename_i hret
      rw [not_eq_true] at hret
      exact (adds_run (adds_run (held_start mem) rfl hus).held hret hvs).kept a ha

def twoReads : List Turn :=
  [.read ⟨[1,2,3],.timeout,by decide⟩ true,.read ⟨[],.timeout,by decide⟩ true,
    .read ⟨[4,5],.eof,by decide⟩ true,.read ⟨[6],.none,by decide⟩ true]

theorem relay_sends_two :
    (((start []).run twoReads).sent.map (read ((start []).run twoReads).mem)).flatten=[1,2,3,4,5] :=
  (relay_sends_bytes_read [] twoReads (by simp [twoReads,Turn.sends])).1

end Relay

end OpsAgent.Tunnel
