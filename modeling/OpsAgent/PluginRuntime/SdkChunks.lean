import OpsAgent.PluginRuntime.Chunking

/-!
# Chunks of the Go SDK (`sdk/plugin/chunking.go`)
-/

namespace OpsAgent.PluginRuntime.Sdk
open Lib List

def chunkSize : Nat := 256*1024

/-- The loop of `ChunkOutput`. -/
def cut (maxChunkBytes seq : Nat) (encoded : List Char) : List Chunk :=
  if maxChunkBytes=0 ∨ encoded=[] then []
  else
    let stop:=min maxChunkBytes encoded.length
    ⟨seq,stop == encoded.length,String.ofList (encoded.take stop)⟩ ::
      cut maxChunkBytes (seq+1) (encoded.drop stop)
termination_by encoded.length
decreasing_by
  rename_i h
  have hpos:=length_pos_iff.mpr (not_or.mp h).2
  rw [length_drop]
  omega

def sizeOf (maxChunkBytes : Int) : Nat := if maxChunkBytes≤0 then chunkSize else maxChunkBytes.toNat
def chunkOutput (output : List UInt8) (maxChunkBytes : Int) : List Chunk :=
  let encoded:=Base64.encode output
  if encoded.length ≤ sizeOf maxChunkBytes then [] else cut (sizeOf maxChunkBytes) 0 encoded

variable {n : Nat}

theorem sizeOf_pos (m : Int) : 0<sizeOf m := by
  unfold sizeOf chunkSize
  split <;> omega
theorem cut_nil (n seq : Nat) : cut n seq []=[] := by rw [cut,if_pos (.inr rfl)]

theorem cut_cons (hn : 0<n) (seq : Nat) {l : List Char} (hl : l≠[]) : ∃ eof,
    cut n seq l=⟨seq,eof,String.ofList (l.take n)⟩::cut n (seq+1) (l.drop n) := by
  rw [cut,if_neg (by simp [hl]; omega)]
  refine ⟨min n l.length == l.length,?_⟩
  dsimp only
  rw [← take_eq_take_min,← drop_eq_drop_min]

theorem cut_data (hn : 0<n) (l : List Char) (seq : Nat) :
    (cut n seq l).map (·.dataB64.toList)=pieces n l := by
  induction l using pieces_induction hn generalizing seq with
  | hnil => rw [cut_nil,pieces_nil,map_nil]
  | hcut l hl ih =>
    obtain ⟨eof,hcut⟩ := cut_cons hn seq hl
    rw [hcut,pieces_of_ne_nil hn hl,map_cons,ih,String.toList_ofList]

theorem cut_seq (hn : 0<n) (l : List Char) (seq : Nat) :
    (cut n seq l).map (·.seq)=range' seq (cut n seq l).length := by
  induction l using pieces_induction hn generalizing seq with
  | hnil => rw [cut_nil]; rfl
  | hcut l hl ih =>
    obtain ⟨eof,hcut⟩ := cut_cons hn seq hl
    rw [hcut,map_cons,ih,length_cons,range'_succ]

theorem encode_cut (k : Nat) (bytes : List UInt8) :
    (Base64.encode bytes).take (4*k)=Base64.encode (bytes.take (3*k)) ∧
    (Base64.encode bytes).drop (4*k)=Base64.encode (bytes.drop (3*k)) := by
  by_cases hlen : bytes.length<3*k
  · have hfits : (Base64.encode bytes).length≤4*k := by
      rw [Base64.length_encode]
      omega
    rw [take_of_length_le hfits,drop_of_length_le hfits,take_of_length_le hlen.le,
      drop_of_length_le hlen.le]
    exact ⟨rfl,rfl⟩
  · have hfront : (bytes.take (3*k)).length=3*k := by
      rw [length_take]
      omega
    have hlength : (Base64.encode (bytes.take (3*k))).length=4*k := by
      rw [Base64.length_encode,hfront]
      omega
    have happ:=Base64.encode_append (bytes.take (3*k)) (bytes.drop (3*k)) (by omega)
    rw [take_append_drop] at happ
    rw [happ,take_left' hlength,drop_left' hlength]
    exact ⟨rfl,rfl⟩

theorem pieces_encode {k : Nat} (hk : 0<k) (bytes : List UInt8) :
    pieces (4*k) (Base64.encode bytes)=(pieces (3*k) bytes).map Base64.encode := by
  have h3 : 0<3*k := by omega
  have h4 : 0<4*k := by omega
  induction bytes using pieces_induction h3 with
  | hnil => rw [Base64.encode,pieces_nil,pieces_nil,map_nil]
  | hcut bytes hne ih =>
    have hencoded : Base64.encode bytes≠[] := by
      have hpos:=length_pos_iff.mpr hne
      rw [← length_pos_iff,Base64.length_encode]
      omega
    obtain ⟨htake,hdrop⟩ := encode_cut k bytes
    rw [pieces_of_ne_nil h4 hencoded,pieces_of_ne_nil h3 hne,htake,hdrop,ih,map_cons]

/-- The chunks decode one by one, in their order, to the output. -/
def Decodes (chunks : List Chunk) (output : List UInt8) : Prop :=
  chunks.map (·.seq)=range chunks.length ∧ ∃ parts : List (List UInt8),
    chunks.map (fun c => Base64.decode c.dataB64.toList)=parts.map some ∧ parts.flatten=output

/-- The encoded text is cut, so the chunks decode one by one exactly if no cut is inside a group of four. -/
theorem chunkOutput_decodes_iff (output : List UInt8) (maxChunkBytes : Int)
    (h : chunkOutput output maxChunkBytes≠[]) :
    Decodes (chunkOutput output maxChunkBytes) output ↔ 4 ∣ sizeOf maxChunkBytes := by
  have hn:=sizeOf_pos maxChunkBytes
  unfold chunkOutput at h ⊢
  dsimp only at h ⊢
  split at h
  · exact absurd rfl h
  rename_i hlong
  rw [if_neg hlong]
  generalize sizeOf maxChunkBytes=n at hn hlong
  have hdata:=congrArg (map Base64.decode) (cut_data hn (Base64.encode output) 0)
  rw [map_map] at hdata
  change map (fun c : Chunk => Base64.decode c.dataB64.toList) _=_ at hdata
  constructor
  · rintro ⟨-,parts,hparts,-⟩
    have hne : Base64.encode output≠[] := by
      intro hnil
      rw [hnil] at hlong
      exact hlong (Nat.zero_le n)
    rw [hdata,pieces_of_ne_nil hn hne,map_cons] at hparts
    cases parts with
    | nil => cases hparts
    | cons part parts =>
      have hfirst:=Base64.length_of_decode (cons_eq_cons.mp hparts).1
      rw [length_take] at hfirst
      omega
  · rintro ⟨k,rfl⟩
    refine ⟨by rw [cut_seq hn,range_eq_range'],pieces (3*k) output,?_,?_⟩
    · rw [hdata,pieces_encode (by omega),map_map]
      exact map_congr_left fun part _ => Base64.decode_encode part
    · exact flatten_pieces (by omega) output

theorem chunkOutput_decodes_four : chunkOutput [104,195,169,10] 4≠[] ∧
    Decodes (chunkOutput [104,195,169,10] 4) [104,195,169,10] := by
  have hne : chunkOutput [104,195,169,10] 4≠[] := by decide +kernel
  exact ⟨hne,(chunkOutput_decodes_iff _ 4 hne).mpr (by decide)⟩

theorem chunkOutput_undecodable :
    (chunkOutput [104,195,169,10] 5).map (fun c => Base64.decode c.dataB64.toList)=[none,none] ∧
    ¬ Decodes (chunkOutput [104,195,169,10] 5) [104,195,169,10] := by
  have hnone : (chunkOutput [104,195,169,10] 5).map (fun c => Base64.decode c.dataB64.toList) =
      [none,none] := by decide +kernel
  refine ⟨hnone,?_⟩
  rintro ⟨-,parts,hparts,-⟩
  rw [hnone] at hparts
  cases parts with
  | nil => cases hparts
  | cons part parts => cases (cons_eq_cons.mp hparts).1

end OpsAgent.PluginRuntime.Sdk
