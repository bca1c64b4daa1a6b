import OpsAgent.Lib.Base64
import OpsAgent.Lib.Pieces

/-!
# Chunked results (`rust-runtime/src/chunking.rs`, `pluginruntime/client.go`)

A `usize` has `w` bits; a sum that does not fit and a slice out of range are faults. `BASE64.encode` of
the crate base64 is a variable.
-/

namespace OpsAgent.PluginRuntime
open Lib List Option

inductive Fault where
  | overflow | outOfRange | outOfFuel
  deriving DecidableEq

variable {w : Nat}

structure ChunkingConfig (w : Nat) where
  enabled : Bool
  (maxChunkBytes maxTotalBytes : BitVec w)

structure Chunk where
  seq : Nat
  eofFlag : Bool
  dataB64 : String
  deriving DecidableEq

/-- The bytes of a string. No object of Rust is larger than `isize::MAX`. -/
structure Output (w : Nat) where
  bytes : List UInt8
  length_lt : bytes.length<2^(w-1)

def add (w a b : Nat) : Except Fault Nat :=
  if a+b<2^w then .ok (a+b) else .error .overflow
def slice (bytes : List UInt8) (start stop : Nat) : Except Fault (List UInt8) :=
  if start ≤ stop ∧ stop≤bytes.length then .ok ((bytes.take stop).drop start)
  else .error .outOfRange

variable (encode : List UInt8 → String)

def chunkLoop (w : Nat) (capped : List UInt8) (step : Nat) (fuel seq idx : Nat) :
    Except Fault (List Chunk) :=
  if idx<capped.length then
    match fuel with
    | 0 => .error .outOfFuel
    | fuel+1 => do
      let sum ← add w idx step
      let stop:=min sum capped.length
      let part ← slice capped idx stop
      let next ← add w seq 1
      let chunks ← chunkLoop w capped step fuel next stop
      .ok (⟨seq,stop ≥ capped.length,encode part⟩::chunks)
  else .ok []

def cap (bytes : List UInt8) (maxTotalBytes : Nat) : Except Fault (List UInt8) :=
  if maxTotalBytes > 0 ∧ bytes.length > maxTotalBytes then slice bytes 0 maxTotalBytes
  else .ok bytes

def chunkOutput (output : Output w) (config : ChunkingConfig w) : Except Fault (List Chunk) :=
  if !config.enabled then .ok [⟨1,true,encode output.bytes⟩]
  else do
    let capped ← cap output.bytes config.maxTotalBytes.toNat
    if capped.isEmpty then .ok []
    else
      let step :=
        if config.maxChunkBytes.toNat=0 then capped.length else config.maxChunkBytes.toNat
      chunkLoop encode w capped step capped.length 1 0

def numbered (seq : Nat) : List (List UInt8) → List Chunk
  | [] => []
  | part::parts => ⟨seq,parts.isEmpty,encode part⟩::numbered (seq+1) parts

variable (output : Output w) (seq : Nat) (parts : List (List UInt8)) (config : ChunkingConfig w)

theorem length_numbered : (numbered encode seq parts).length=parts.length := by
  induction parts generalizing seq with
  | nil => rfl
  | cons part parts ih => rw [numbered,length_cons,length_cons,ih]
theorem numbered_seq : (numbered encode seq parts).map Chunk.seq=range' seq parts.length := by
  induction parts generalizing seq with
  | nil => rfl
  | cons part parts ih => rw [numbered,map_cons,ih,length_cons,range'_succ]

theorem numbered_decode (hencode : ∀ part, Base64.decode (encode part).toList=some part) :
    (numbered encode seq parts).map (fun c => Base64.decode c.dataB64.toList)=parts.map some := by
  induction parts generalizing seq with
  | nil => rfl
  | cons part parts ih => rw [numbered,map_cons,map_cons,ih,hencode]

theorem numbered_eofFlag (i : Nat) (c : Chunk)
    (h : (numbered encode seq parts)[i]?=some c) : c.eofFlag ↔ i+1=parts.length := by
  induction parts generalizing seq i with
  | nil => simp [numbered] at h
  | cons part parts ih =>
    cases i with
    | zero =>
      cases h
      simp [List.isEmpty_iff]
    | succ i =>
      rw [ih (seq+1) i h,length_cons]
      omega

theorem add_eq_ok {a b : Nat} (h : a+b<2^w) : add w a b=.ok (a+b) := if_pos h
theorem slice_eq_ok {bytes : List UInt8} {start stop : Nat} (hstart : start ≤ stop)
    (hstop : stop≤bytes.length) : slice bytes start stop=.ok ((bytes.take stop).drop start) :=
  if_pos ⟨hstart,hstop⟩

section
variable {capped : List UInt8} {step : Nat} (idx : Nat)

theorem drop_take_min :
    (capped.take (min (idx+step) capped.length)).drop idx=(capped.drop idx).take step := by
  rw [drop_take,take_eq_take_iff,length_drop]
  omega

theorem drop_min : capped.drop (min (idx+step) capped.length)=(capped.drop idx).drop step := by
  rw [drop_drop]
  rcases Nat.le_total (idx+step) capped.length with h | h
  · rw [Nat.min_eq_left h]
  · rw [Nat.min_eq_right h,drop_length,drop_eq_nil_of_le h]

theorem last_iff_no_piece (hstep : 0<step) (idx : Nat) :
    decide (min (idx+step) capped.length ≥ capped.length) =
      (pieces step ((capped.drop idx).drop step)).isEmpty := by
  by_cases hend : capped.length ≤ idx+step
  · rw [← drop_min,Nat.min_eq_right hend,drop_length,pieces_nil]
    simp
  · have hmore : (capped.drop idx).drop step≠[] := by simp; omega
    rw [pieces_of_ne_nil hstep hmore]
    simp
    omega

theorem chunkLoop_eq (hlen : capped.length<2^(w-1)) (hstep : 0<step) (hfits : step<2^w)
    (fuel seq idx : Nat) (hfuel : capped.length-idx≤fuel) (hseq : seq ≤ idx+1)
    (hidx : idx<capped.length → idx=0 ∨ step<capped.length) :
    chunkLoop encode w capped step fuel seq idx=.ok (numbered encode seq (pieces step (capped.drop idx))) := by
  induction fuel generalizing seq idx with
  | zero =>
    rw [chunkLoop,if_neg (by omega),drop_eq_nil_of_le (by omega),pieces_nil]
    rfl
  | succ fuel ih =>
    by_cases hlt : idx<capped.length
    · have hpow : 2^w=2^(w-1)+2^(w-1) := by
        cases w with
        | zero => simp at hlen; omega
        | succ w => rw [Nat.add_sub_cancel,Nat.pow_succ]; omega
      have hsum : add w idx step=.ok (idx+step) := by
        apply add_eq_ok
        rcases hidx hlt with h | h <;> omega
      have hnext : add w seq 1=.ok (seq+1) := add_eq_ok (by omega)
      have hpart : slice capped idx (min (idx+step) capped.length) =
          .ok ((capped.drop idx).take step) := by
        rw [slice_eq_ok (by omega) (by omega),drop_take_min]
      have hloop:=ih (seq+1) (min (idx+step) capped.length) (by omega) (by omega) (by omega)
      have hne : capped.drop idx≠[] := by simp; omega
      rw [chunkLoop,if_pos hlt]
      simp only [hsum,hpart,hnext,hloop,bind,Except.bind]
      rw [pieces_of_ne_nil hstep hne,numbered,last_iff_no_piece hstep,drop_min]
    · rw [chunkLoop,if_neg hlt,drop_eq_nil_of_le (by omega),pieces_nil]
      rfl

end

def Output.capped (output : Output w) (config : ChunkingConfig w) : List UInt8 :=
  if config.maxTotalBytes.toNat=0 then output.bytes
  else output.bytes.take (min output.bytes.length config.maxTotalBytes.toNat)
def chunkStep (config : ChunkingConfig w) (length : Nat) : Nat :=
  if config.maxChunkBytes.toNat=0 then length else config.maxChunkBytes.toNat

theorem Output.capped_length_lt : (output.capped config).length<2^(w-1) := by
  have hlt:=output.length_lt
  rw [Output.capped]
  split
  · exact hlt
  · rw [length_take]
    omega

theorem cap_eq : cap output.bytes config.maxTotalBytes.toNat=.ok (output.capped config) := by
  rw [cap,Output.capped]
  split
  next h =>
    rw [slice_eq_ok (Nat.zero_le _) h.2.le,if_neg (by omega),Nat.min_eq_right h.2.le,
      drop_zero]
  next h =>
    split
    · rfl
    · rw [Nat.min_eq_left (by omega),take_length]

theorem chunkStep_pos {n : Nat} (h : 0<n) : 0<chunkStep config n := by
  rw [chunkStep]
  split <;> omega

theorem chunkOutput_eq (henabled : config.enabled) :
    chunkOutput encode output config=.ok (numbered encode 1 (pieces (chunkStep config (output.capped config).length) (output.capped config))) := by
  rw [chunkOutput,henabled,cap_eq]
  generalize hc : output.capped config=capped
  have hlen : capped.length<2^(w-1) := hc ▸ output.capped_length_lt config
  cases capped with
  | nil =>
    rw [pieces_nil]
    rfl
  | cons b bytes =>
    have hpow : 2^(w-1)≤2^w := Nat.pow_le_pow_right (by omega) (Nat.sub_le w 1)
    have hbound:=config.maxChunkBytes.isLt
    have hfits : chunkStep config (b::bytes).length<2^w := by
      rw [chunkStep]
      split <;> omega
    have hloop:=chunkLoop_eq encode hlen (chunkStep_pos config (by simp)) hfits
      (b::bytes).length 1 0 (Nat.sub_le _ _) le_rfl (by simp)
    rw [drop_zero] at hloop
    exact hloop

/-- The chunks are numbered from 1 in order, are together the output up to the total limit, none above
the chunk limit, and the last one is marked. -/
theorem chunkOutput_spec (encode : List UInt8 → String)
    (hencode : ∀ part, Base64.decode (encode part).toList=some part) (output : Output w)
    (config : ChunkingConfig w) (henabled : config.enabled=true) :
    ∃ chunks, chunkOutput encode output config=.ok chunks ∧
      chunks.map Chunk.seq=List.range' 1 chunks.length ∧ (∃ parts : List (List UInt8),
        chunks.map (fun c => Base64.decode c.dataB64.toList)=parts.map some ∧
        parts.flatten=(if config.maxTotalBytes.toNat=0 then output.bytes
          else output.bytes.take (min output.bytes.length config.maxTotalBytes.toNat)) ∧
        ∀ part∈parts, 0<config.maxChunkBytes.toNat → part.length≤config.maxChunkBytes.toNat) ∧
      ∀ i c, chunks[i]?=some c → (c.eofFlag=true ↔ i+1=chunks.length) := by
  have hresult:=chunkOutput_eq encode output config henabled
  generalize hc : output.capped config=capped at hresult
  generalize hs : chunkStep config capped.length=step at hresult
  refine ⟨_,hresult,?_,⟨_,numbered_decode _ _ _ hencode,?_,?_⟩,?_⟩
  · rw [numbered_seq,length_numbered]
  · change _=output.capped config
    rw [hc]
    cases capped with
    | nil => rw [pieces_nil,flatten_nil]
    | cons b bytes =>
      rw [← hs]
      exact flatten_pieces (chunkStep_pos config (by simp)) _
  · intro part hpart hpos
    have hstep : step=config.maxChunkBytes.toNat := by rw [← hs,chunkStep,if_neg (by omega)]
    rw [← hstep] at hpos ⊢
    exact length_le_of_mem_pieces hpos _ part hpart
  · intro i c hget
    rw [length_numbered]
    exact numbered_eofFlag _ _ _ i c hget

def standard (part : List UInt8) : String := String.ofList (Base64.encode part)

theorem decode_standard (part : List UInt8) : Base64.decode (standard part).toList=some part := by
  rw [standard,String.toList_ofList,Base64.decode_encode]

theorem chunkOutput_spec_cut :
    ∃ chunks, chunkOutput (w := 64) standard ⟨[104,195,169],by decide⟩ ⟨true,2#64,0#64⟩=.ok chunks ∧
      chunks.map (fun c => Base64.decode c.dataB64.toList)=[some [104,195],some [169]] ∧
      ∀ i c, chunks[i]?=some c → (c.eofFlag=true ↔ i+1=chunks.length) := by
  obtain ⟨chunks,hresult,-,-,heof⟩ := chunkOutput_spec (w := 64) standard decode_standard
    ⟨[104,195,169],by decide⟩ ⟨true,2#64,0#64⟩ rfl
  have hchunks : chunkOutput (w := 64) standard ⟨[104,195,169],by decide⟩ ⟨true,2#64,0#64⟩ =
      .ok [⟨1,false,standard [104,195]⟩,⟨2,true,standard [169]⟩] := rfl
  rw [hchunks,Except.ok.injEq] at hresult
  subst hresult
  exact ⟨_,hchunks,by simp [decode_standard],heof⟩

structure ChunkingRequest where
  enabled : Bool
  (maxChunkBytes maxTotalBytes : Int)

structure RuntimeConfig where
  (maxResultBytes chunkSizeBytes : Int)

def newRuntime (cfg : RuntimeConfig) : RuntimeConfig where
  maxResultBytes := if cfg.maxResultBytes≤0 then 8*1024*1024 else cfg.maxResultBytes
  chunkSizeBytes := if cfg.chunkSizeBytes≤0 then 256*1024 else cfg.chunkSizeBytes
def RuntimeConfig.chunking (cfg : RuntimeConfig) (req : ChunkingRequest) : ChunkingRequest where
  enabled := true
  maxChunkBytes := if req.maxChunkBytes≤0 then cfg.chunkSizeBytes else req.maxChunkBytes
  maxTotalBytes := if req.maxTotalBytes≤0 then cfg.maxResultBytes else req.maxTotalBytes
def readUsize (w : Nat) (n : Int) : Option (BitVec w) :=
  if 0≤n ∧ n.toNat<2^w then some (BitVec.ofNat w n.toNat) else none
def readChunking (w : Nat) (c : ChunkingRequest) : Option (ChunkingConfig w) := do
  let maxChunkBytes ← readUsize w c.maxChunkBytes
  let maxTotalBytes ← readUsize w c.maxTotalBytes
  some ⟨c.enabled,maxChunkBytes,maxTotalBytes⟩

/-- `base64.StdEncoding.DecodedLen` -/
def decodedLen (n : Nat) : Nat := n / 4*3

/-- The loop of `validateChunkSize`. All chunks come in one line of text, whose
length is an `int`, so the total is one too. -/
def validateTotal (maxBytes : Int) (total : Int) : List Chunk → Option String
  | [] => none
  | c::chunks =>
    let total:=total+decodedLen c.dataB64.utf8ByteSize
    if total > maxBytes then
      some s!"plugin response exceeded max result bytes: {total} > {maxBytes}"
    else validateTotal maxBytes total chunks

/-- `none` is the nil error. -/
def validateChunkSize (chunks : List Chunk) (maxBytes : Int) : Option String :=
  if maxBytes≤0 then none else validateTotal maxBytes 0 chunks

theorem validateTotal_eq_none {maxBytes total : Int} (h : total ≤ maxBytes) (chunks : List Chunk) :
    validateTotal maxBytes total chunks=none ↔
      total+(chunks.map fun c => decodedLen c.dataB64.utf8ByteSize).sum ≤ maxBytes := by
  induction chunks generalizing total with
  | nil => simpa [validateTotal] using h
  | cons c chunks ih =>
    simp only [validateTotal,map_cons,sum_cons]
    split
    next hexceeded =>
      refine iff_of_false (fun h => by cases h) ?_
      omega
    next hwithin =>
      rw [ih (Int.not_lt.mp hwithin)]
      omega

def roundUp (n : Nat) : Nat := (n+2) / 3*3

def countedBytes (length step : Nat) : Nat := length / step*roundUp step+roundUp (length % step)

section
variable {encode : List UInt8 → String}
  (hencode : ∀ part, (encode part).utf8ByteSize=4*((part.length+2) / 3))
include hencode

theorem decodedLen_encode (part : List UInt8) :
    decodedLen (encode part).utf8ByteSize=roundUp part.length := by
  rw [hencode,decodedLen,roundUp]
  omega

theorem numbered_decodedLen :
    (numbered encode seq parts).map (fun c => decodedLen c.dataB64.utf8ByteSize) =
      parts.map fun part => roundUp part.length := by
  induction parts generalizing seq with
  | nil => rfl
  | cons part parts ih => rw [numbered,map_cons,map_cons,ih,decodedLen_encode hencode]

theorem validate_numbered {parts : List (List UInt8)} {maxBytes : Int} (hpos : 0 < maxBytes) (seq : Nat) :
    validateChunkSize (numbered encode seq parts) maxBytes=none ↔
      ((parts.map fun part => roundUp part.length).sum : Int) ≤ maxBytes := by
  rw [validateChunkSize,if_neg (by omega),validateTotal_eq_none hpos.le,
    numbered_decodedLen _ _ hencode,Int.zero_add]

omit hencode in
theorem sum_roundUp_pieces (bytes : List UInt8) (config : ChunkingConfig w) :
    ((pieces (chunkStep config bytes.length) bytes).map fun part => roundUp part.length).sum =
      countedBytes bytes.length (chunkStep config bytes.length) := by
  cases bytes with
  | nil => simp [pieces_nil,countedBytes,roundUp]
  | cons b bytes => exact sum_pieces (chunkStep_pos config (by simp)) roundUp rfl _

omit hencode in
theorem readUsize_toNat {n : Int} {x : BitVec w} (h : readUsize w n=some x) : (x.toNat : Int)=n := by
  rw [readUsize] at h
  split at h
  next hn =>
    cases h
    rw [BitVec.toNat_ofNat,Nat.mod_eq_of_lt hn.2,Int.toNat_of_nonneg hn.1]
  next => cases h

omit hencode in
theorem readChunking_fields {c : ChunkingRequest} {config : ChunkingConfig w}
    (h : readChunking w c=some config) : config.enabled=c.enabled ∧
      (config.maxTotalBytes.toNat : Int)=c.maxTotalBytes := by
  simp only [readChunking,bind_eq_bind,bind_eq_some_iff] at h
  obtain ⟨x,-,y,hy,hconfig⟩ := h
  cases hconfig
  exact ⟨rfl,readUsize_toNat hy⟩

theorem validate_chunkOutput (maxBytes : Int)
    (henabled : config.enabled) (hpos : 0 < maxBytes)
    (hmax : (config.maxTotalBytes.toNat : Int)=maxBytes) :
    let length:=min output.bytes.length maxBytes.toNat
    ∃ chunks, chunkOutput encode output config=.ok chunks ∧
      (validateChunkSize chunks maxBytes=none ↔
        countedBytes length (chunkStep config length) ≤ maxBytes) := by
  intro length
  have hlength : (output.capped config).length=length := by
    rw [Output.capped,if_neg (by omega),length_take]
    omega
  refine ⟨_,chunkOutput_eq encode output config henabled,?_⟩
  rw [validate_numbered hencode hpos,sum_roundUp_pieces,hlength]

end

/-- A result within the limit passes the check of the client exactly when the
chunks, each rounded up to a multiple of three bytes, are within the limit. -/
theorem limited_result_accepted_iff (encode : List UInt8 → String)
    (hencode : ∀ part, (encode part).utf8ByteSize=4*((part.length+2) / 3)) (cfg : RuntimeConfig) 
    (req : ChunkingRequest) (output : Output w) (config : ChunkingConfig w) (hpos : 0<cfg.maxResultBytes)
    (hask : (cfg.chunking req).maxTotalBytes=cfg.maxResultBytes)
    (hread : readChunking w (cfg.chunking req)=some config) :
    let length:=min output.bytes.length cfg.maxResultBytes.toNat
    ∃ chunks, chunkOutput encode output config=.ok chunks ∧
      (validateChunkSize chunks cfg.maxResultBytes=none ↔
        countedBytes length (chunkStep config length)≤cfg.maxResultBytes) := by
  obtain ⟨henabled,hmax⟩ := readChunking_fields hread
  exact validate_chunkOutput output config hencode cfg.maxResultBytes henabled hpos (hmax.trans hask)

theorem size_standard (part : List UInt8) : (standard part).utf8ByteSize=4*((part.length+2) / 3) :=
  Base64.utf8ByteSize_encode part

theorem limited_result_accepted_small :
    ∃ chunks, chunkOutput (w := 64) standard ⟨[111,107],by decide⟩ ⟨true,262144#64,4#64⟩=.ok chunks ∧
      validateChunkSize chunks 4=none := by
  obtain ⟨chunks,hresult,hiff⟩ := limited_result_accepted_iff (w := 64) standard size_standard
    ⟨4,262144⟩ ⟨false,0,0⟩ ⟨[111,107],by decide⟩ ⟨true,262144#64,4#64⟩ (by decide) rfl rfl
  exact ⟨chunks,hresult,hiff.mpr (by decide)⟩

theorem limited_result_rejected : readChunking 64 (RuntimeConfig.chunking ⟨1,262144⟩ ⟨false,0,0⟩) =
        some ⟨true,262144#64,1#64⟩ ∧
      ∃ chunks, chunkOutput (w := 64) standard ⟨[97],by decide⟩ ⟨true,262144#64,1#64⟩=.ok chunks ∧
        validateChunkSize chunks 1=some "plugin response exceeded max result bytes: 3 > 1" :=
  ⟨rfl,[⟨1,true,"YQ=="⟩],by decide,by decide⟩

/-- With the default limits the last 64 bytes below the limit are refused, and so is all that is longer. -/
theorem default_limits_reject (encode : List UInt8 → String)
    (hencode : ∀ part, (encode part).utf8ByteSize=4*((part.length+2) / 3)) (output : Output 64) :
    ∃ chunks, chunkOutput encode output ⟨true,262144#64,8388608#64⟩=.ok chunks ∧
      (validateChunkSize chunks (newRuntime ⟨0,0⟩).maxResultBytes≠none ↔ 8388544<output.bytes.length) := by
  obtain ⟨chunks,hresult,hiff⟩ := validate_chunkOutput output ⟨true,262144#64,8388608#64⟩
    hencode 8388608 rfl (by decide) rfl
  refine ⟨chunks,hresult,?_⟩
  change ¬ _ ↔ _
  rw [show (newRuntime ⟨0,0⟩).maxResultBytes=8388608 from rfl,hiff]
  change ¬ ((countedBytes _ 262144 : Nat) : Int)≤8388608 ↔ _
  simp only [countedBytes,roundUp]
  omega

def tooLong : Output 64 where
  bytes := replicate 8388545 97
  length_lt := by rw [length_replicate]; decide

theorem default_limits_reject_tooLong :
    ∃ chunks, chunkOutput standard tooLong ⟨true,262144#64,8388608#64⟩=.ok chunks ∧
      validateChunkSize chunks (newRuntime ⟨0,0⟩).maxResultBytes≠none := by
  obtain ⟨chunks,hresult,hiff⟩ := default_limits_reject standard size_standard tooLong
  refine ⟨chunks,hresult,hiff.mpr ?_⟩
  rw [tooLong,length_replicate]
  decide

end OpsAgent.PluginRuntime
