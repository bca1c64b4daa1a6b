import OpsAgent.Lib.FileStore
import OpsAgent.Lib.GoStrings

/-!
# Replacing the agent's binary (`updater/updater.go`)

The network and the operating system are parameters: each file operation may fail, and one that
fails changes no file (a failed `Write` may have written a part).
-/

namespace OpsAgent.Update
open Lib.GoStrings Option
open Lib.FileStore

abbrev Disk := Files String GoString

structure UpdateRequest where
  (downloadURL sha256 : String)
  signature : GoString

structure Updater where
  (currentPath backupPath : String)
  publicKey : GoString

inductive FileOp where
  | createTemp | write | close | chmod | remove
  -- the two renames of `swap` and the one that undoes the first
  | backup | install | restore
  -- those of `Rollback`
  | stat | rollback
  deriving DecidableEq

inductive Response where
  | failed (err : String)
  -- what can be read of the body, and the error after it if it does not end there
  | answered (status : Nat) (body : GoString) (readError : Option String)

/-- What the network, the operating system and the two cryptographic functions answer. -/
structure World where
  get : String → Response
  fails : FileOp → Option String
  -- the path that `os.CreateTemp` picks in the download directory
  tmpPath : String
  -- how much of the data a failing `Write` writes
  written : Nat
  sum256 : GoString → GoString
  verify : GoString → GoString → GoString → Bool

def maxDownloadSize : Nat := 500*1024*1024

def download (w : World) (url : String) : Except String GoString :=
  match w.get url with
  | .failed err => .error ("http get failed: "++err)
  | .answered status body readError =>
    if status≠200 then .error ("unexpected status code: "++toString status)
    else
      let data:=body.take (maxDownloadSize+1)
      match if data.length ≤ maxDownloadSize then readError else none with
      | some err => .error ("reading response body failed: "++err)
      | none =>
        if maxDownloadSize<data.length then
          .error ("download exceeds maximum size of "++toString maxDownloadSize++" bytes")
        else .ok data

def verifyChecksum (w : World) (data : GoString) (expected : String) : Except String Unit :=
  let actual:=hex (w.sum256 data)
  if actual≠expected then
    .error ("checksum mismatch: expected "++expected++", got "++actual)
  else .ok ()

def verifySignature (u : Updater) (w : World) (data sig : GoString) : Except String Unit :=
  if w.verify u.publicKey data sig then .ok () else .error "ed25519 signature verification failed"

def fetch (u : Updater) (w : World) (req : UpdateRequest) : Except String GoString :=
  match download w req.downloadURL with
  | .error err => .error ("download failed: "++err)
  | .ok data => match verifyChecksum w data req.sha256 with
    | .error err => .error ("checksum verification failed: "++err)
    | .ok () => match verifySignature u w data req.signature with
      | .error err => .error ("signature verification failed: "++err)
      | .ok () => .ok data

namespace World

def removeTemp (w : World) (disk : Disk) : Disk :=
  match w.fails .remove with
  | some _ => disk
  | none => remove disk w.tmpPath

def renameFile (w : World) (op : FileOp) (disk : Disk) (p q : String) : Except String Disk :=
  match w.fails op with
  | some err => .error err
  | none => match rename disk p q with
    | none => .error "no such file or directory"
    | some disk => .ok disk

end World

def writeTemp (w : World) (disk : Disk) (data : GoString) : Disk × Except String Unit :=
  match w.fails .createTemp with
  | some err => (disk,.error ("creating temp file failed: "++err))
  | none => match create disk w.tmpPath [] with
    | none => (disk,.error "creating temp file failed: file exists")
    | some disk => match w.fails .write with
      | some err =>
        (w.removeTemp (write disk w.tmpPath (data.take w.written)),
          .error ("writing temp file failed: "++err))
      | none =>
        let disk:=write disk w.tmpPath data
        match w.fails .close with
        | some err => (w.removeTemp disk,.error ("closing temp file failed: "++err))
        | none => match w.fails .chmod with
          | some err => (w.removeTemp disk,.error ("setting permissions failed: "++err))
          | none => (disk,.ok ())

def swap (u : Updater) (w : World) (disk : Disk) : Disk × Except String Unit :=
  match w.renameFile .backup disk u.currentPath u.backupPath with
  | .error err => (disk,.error ("backing up current binary failed: "++err))
  | .ok disk => match w.renameFile .install disk w.tmpPath u.currentPath with
    | .ok disk => (disk,.ok ())
    | .error err => match w.renameFile .restore disk u.backupPath u.currentPath with
      | .error rbErr =>
        (disk,.error ("installing new binary failed and rollback also failed: install="++err ++
          ", rollback="++rbErr))
      | .ok disk => (disk,.error ("installing new binary failed (backup restored): "++err))

def apply (u : Updater) (w : World) (req : UpdateRequest) (disk : Disk) : Disk × Except String Unit :=
  match fetch u w req with
  | .error err => (disk,.error err)
  | .ok data =>
    let temp:=writeTemp w disk data
    match temp.2 with
    | .error err => (temp.1,.error ("writing temp file failed: "++err))
    | .ok () =>
      let swapped:=swap u w temp.1
      match swapped.2 with
      | .error err => (swapped.1,.error ("swap failed: "++err))
      | .ok () => (swapped.1,.ok ())

namespace World

def creates (w : World) (disk : Disk) : Bool :=
  (w.fails .createTemp).isNone&&(disk w.tmpPath).isNone
def tempFails (w : World) : Bool :=
  (w.fails .write).isSome||(w.fails .close).isSome||(w.fails .chmod).isSome
def swaps (w : World) (u : Updater) (disk : Disk) : Bool :=
  (disk u.currentPath).isSome&&(w.fails .backup).isNone&&(w.fails .install).isNone

theorem renameFile_ok {w : World} {op : FileOp} {disk : Disk} {p : String} {data : GoString}
    (hop : w.fails op=none) (hp : disk p=some data) (q : String) :
    w.renameFile op disk p q=.ok (write (remove disk p) q data) := by
  simp only [renameFile,hop,rename,hp]

theorem renameFile_error {w : World} {op : FileOp} (disk : Disk) (p q : String)
    (h : w.fails op≠none ∨ disk p=none) : ∃ err, w.renameFile op disk p q=.error err := by
  cases hop : w.fails op with
  | some err => exact ⟨err,by simp only [renameFile,hop]⟩
  | none =>
    have hp:=h.resolve_left (fun hn => hn hop)
    simp only [renameFile,hop,rename,hp]
    exact ⟨_,rfl⟩

end World

variable {w : World} {disk : Disk}

theorem writeTemp_refused (data : GoString)
    (h : w.creates disk=false) : ∃ err, writeTemp w disk data=(disk,.error err) := by
  cases hc : w.fails .createTemp with
  | some err =>
    simp only [writeTemp,hc]
    exact ⟨_,rfl⟩
  | none =>
    cases ht : disk w.tmpPath with
    | some old =>
      simp only [writeTemp,hc,create,ht]
      exact ⟨_,rfl⟩
    | none => simp [World.creates,hc,ht] at h

theorem create_of_creates (h : w.creates disk) :
    w.fails .createTemp=none ∧ disk w.tmpPath=none := by simpa [World.creates] using h

theorem writeTemp_failed (data : GoString) (h : w.creates disk) (hf : w.tempFails) :
    ∃ part err, writeTemp w disk data=(w.removeTemp (write disk w.tmpPath part),.error err) := by
  obtain ⟨hc,ht⟩ := create_of_creates h
  simp only [writeTemp,hc,create,ht,write_write]
  cases hw : w.fails .write with
  | some err => exact ⟨_,_,rfl⟩
  | none =>
    cases hcl : w.fails .close with
    | some err => exact ⟨_,_,rfl⟩
    | none =>
      cases hch : w.fails .chmod with
      | some err => exact ⟨_,_,rfl⟩
      | none => simp [World.tempFails,hw,hcl,hch] at hf

theorem writeTemp_ok (data : GoString) (h : w.creates disk)
    (hf : w.tempFails=false) : writeTemp w disk data=(write disk w.tmpPath data,.ok ()) := by
  obtain ⟨hc,ht⟩ := create_of_creates h
  simp only [World.tempFails,Bool.or_eq_false_iff,isSome_eq_false_iff,isNone_iff_eq_none] at hf
  simp only [writeTemp,hc,create,ht,write_write,hf]

section Swap

variable {u : Updater} {w : World} {disk : Disk} {new : GoString}

theorem backup_other (disk : Disk) (old : GoString) {p : String} (hc : p≠u.currentPath)
    (hb : p≠u.backupPath) : write (remove disk u.currentPath) u.backupPath old p=disk p := by
  rw [write_of_ne hb,remove_of_ne hc]

theorem swap_failed (htc : w.tmpPath≠u.currentPath) (htb : w.tmpPath≠u.backupPath)
    (hnew : disk w.tmpPath=some new) (h : w.swaps u disk=false) :
    ∃ disk' err, swap u w disk=(disk',.error err) ∧ disk' w.tmpPath=some new := by
  by_cases hbackup : w.fails .backup≠none ∨ disk u.currentPath=none
  · obtain ⟨err,herr⟩ := w.renameFile_error disk u.currentPath u.backupPath hbackup
    simp only [swap,herr]
    exact ⟨_,_,rfl,hnew⟩
  · simp only [not_or,not_not] at hbackup
    obtain ⟨old,hold⟩ := ne_none_iff_exists'.mp hbackup.2
    have hinstall : w.fails .install≠none := by
      intro hn
      simp [World.swaps,hbackup.1,hold,hn] at h
    have htmp:=backup_other disk old htc htb
    obtain ⟨err,herr⟩ := w.renameFile_error
      (write (remove disk u.currentPath) u.backupPath old) w.tmpPath u.currentPath (.inl hinstall)
    simp only [swap,World.renameFile_ok hbackup.1 hold,herr]
    cases hrestore : w.fails .restore with
    | some rbErr =>
      simp only [World.renameFile,hrestore]
      exact ⟨_,_,rfl,htmp.trans hnew⟩
    | none =>
      rw [World.renameFile_ok hrestore (write_self _ _ old)]
      refine ⟨_,_,rfl,?_⟩
      rw [write_of_ne htc,remove_of_ne htb,htmp,hnew]

theorem swap_ok (hcb : u.currentPath≠u.backupPath) (htc : w.tmpPath≠u.currentPath)
    (htb : w.tmpPath≠u.backupPath) (hnew : disk w.tmpPath=some new) (h : w.swaps u disk) :
    ∃ disk', swap u w disk=(disk',.ok ()) ∧ disk' u.currentPath=some new ∧
      disk' u.backupPath=disk u.currentPath ∧ disk' w.tmpPath=none := by
  simp only [World.swaps,Bool.and_eq_true,isNone_iff_eq_none,isSome_iff_exists] at h
  obtain ⟨⟨⟨old,hold⟩,hbackup⟩,hinstall⟩ := h
  have htmp:=(backup_other disk old htc htb).trans hnew
  simp only [swap,World.renameFile_ok hbackup hold,World.renameFile_ok hinstall htmp]
  refine ⟨_,rfl,write_self _ _ _,?_,?_⟩
  · rw [write_of_ne hcb.symm,remove_of_ne htb.symm,write_self,hold]
  · rw [write_of_ne htc,remove_self]

end Swap

/-- If `Apply` fails, the two binaries and the path of the temporary file are as they were; otherwise the
current binary is data that was downloaded and verified, and the backup is the former one. -/
def AllOrNothing (u : Updater) (w : World) (req : UpdateRequest) (disk : Disk) : Prop :=
  let out:=apply u w req disk
  match out.2 with
  | .error _ => out.1 u.currentPath=disk u.currentPath ∧
      out.1 u.backupPath=disk u.backupPath ∧ out.1 w.tmpPath=disk w.tmpPath
  | .ok () => ∃ data, download w req.downloadURL=.ok data ∧ hex (w.sum256 data)=req.sha256 ∧
      w.verify u.publicKey data req.signature ∧ out.1 u.currentPath=some data ∧
      out.1 u.backupPath=disk u.currentPath

/-- The operations whose failure is not undone succeed when they are reached: the removal of the
temporary file, and the two renames of `swap`. -/
def tidies (u : Updater) (w : World) (disk : Disk) : Bool :=
  !w.creates disk || if w.tempFails then (w.fails .remove).isNone else w.swaps u disk

theorem fetch_verified {u : Updater} {req : UpdateRequest} {data : GoString}
    (h : fetch u w req=.ok data) : download w req.downloadURL=.ok data ∧ hex (w.sum256 data)=req.sha256 ∧
      w.verify u.publicKey data req.signature := by
  unfold fetch at h
  split at h
  next => cases h
  next data' hdownload =>
    split at h
    next => cases h
    next hsum =>
      split at h
      next => cases h
      next hsig =>
        cases h
        refine ⟨hdownload,?_,?_⟩
        · simpa [verifyChecksum] using hsum
        · simpa [verifySignature] using hsig

section Apply

variable {u : Updater} {w : World} {req : UpdateRequest} {disk : Disk} {data : GoString}
  {err : String} {disk' : Disk}

theorem allOrNothing_error (h : apply u w req disk=(disk',.error err)) :
    AllOrNothing u w req disk ↔ disk' u.currentPath=disk u.currentPath ∧
      disk' u.backupPath=disk u.backupPath ∧ disk' w.tmpPath=disk w.tmpPath := by
  simp only [AllOrNothing,h]
theorem apply_temp_error {temp : Disk} (hfetch : fetch u w req=.ok data)
    (h : writeTemp w disk data=(temp,.error err)) : ∃ err', apply u w req disk=(temp,.error err') := by
  simp only [apply,hfetch,h]
  exact ⟨_,rfl⟩

theorem not_allOrNothing_of_temp {left : GoString}
    (h : apply u w req disk=(disk',.error err)) (hold : disk w.tmpPath=none)
    (hleft : disk' w.tmpPath=some left) : ¬ AllOrNothing u w req disk := by
  rw [allOrNothing_error h]
  intro hsame
  rw [hsame.2.2,hold] at hleft
  cases hleft

theorem allOrNothing_tempFails (hfetch : fetch u w req=.ok data)
    (hcreates : w.creates disk) (hf : w.tempFails) :
    AllOrNothing u w req disk ↔ w.fails .remove=none := by
  obtain ⟨_,hnone⟩ := create_of_creates hcreates
  obtain ⟨part,err,hwrite⟩ := writeTemp_failed data hcreates hf
  obtain ⟨err',happly⟩ := apply_temp_error hfetch hwrite
  cases hremove : w.fails .remove with
  | none =>
    simp only [World.removeTemp,hremove,remove_write hnone] at happly
    rw [allOrNothing_error happly]
    simp
  | some rmErr =>
    simp only [World.removeTemp,hremove] at happly
    simp only [reduceCtorEq,iff_false]
    exact not_allOrNothing_of_temp happly hnone (write_self _ _ part)

theorem allOrNothing_swap (hcb : u.currentPath≠u.backupPath) (htc : w.tmpPath≠u.currentPath)
    (htb : w.tmpPath≠u.backupPath) (hfetch : fetch u w req=.ok data)
    (hcreates : w.creates disk) (hf : w.tempFails=false) :
    AllOrNothing u w req disk ↔ w.swaps u disk := by
  obtain ⟨_,hnone⟩ := create_of_creates hcreates
  have hwrite:=writeTemp_ok data hcreates hf
  have hnew:=write_self disk w.tmpPath data
  have hcurrent:=write_of_ne htc.symm disk data
  have hsame : w.swaps u (write disk w.tmpPath data)=w.swaps u disk := by
    simp only [World.swaps,hcurrent]
  cases hswaps : w.swaps u disk with
  | false =>
    obtain ⟨disk',err,hswap,hleft⟩ := swap_failed htc htb hnew (hsame.trans hswaps)
    have happly : apply u w req disk=(disk',.error ("swap failed: "++err)) := by
      simp only [apply,hfetch,hwrite,hswap]
    simp only [Bool.false_eq_true,iff_false]
    exact not_allOrNothing_of_temp happly hnone hleft
  | true =>
    obtain ⟨disk',hswap,hcur,hbak,_⟩ := swap_ok hcb htc htb hnew (hsame.trans hswaps)
    obtain ⟨hdownload,hsum,hsig⟩ := fetch_verified hfetch
    simp only [AllOrNothing,apply,hfetch,hwrite,hswap,iff_true]
    exact ⟨data,hdownload,hsum,hsig,hcur,hbak.trans hcurrent⟩

end Apply

/-- `Apply` does all or nothing exactly if its data is not verified or the operations whose failure it
does not undo succeed. -/
theorem apply_allOrNothing_iff (u : Updater) (w : World) (req : UpdateRequest) (disk : Disk)
    (hcb : u.currentPath≠u.backupPath) (htc : w.tmpPath≠u.currentPath) (htb : w.tmpPath≠u.backupPath) :
    AllOrNothing u w req disk ↔ ∀ data, fetch u w req=.ok data → tidies u w disk=true := by
  cases hfetch : fetch u w req with
  | error err =>
    have happly : apply u w req disk=(disk,.error err) := by simp only [apply,hfetch]
    rw [allOrNothing_error happly]
    simp
  | ok data =>
    have hone : (∀ d, Except.ok data=(Except.ok d : Except String GoString) →
        tidies u w disk=true) ↔ tidies u w disk=true :=
      ⟨fun h => h data rfl,fun h _ _ => h⟩
    rw [hone,tidies]
    cases hcreates : w.creates disk with
    | false =>
      obtain ⟨err,hwrite⟩ := writeTemp_refused data hcreates
      obtain ⟨err',happly⟩ := apply_temp_error hfetch hwrite
      rw [allOrNothing_error happly]
      simp
    | true =>
      cases hf : w.tempFails with
      | true =>
        rw [allOrNothing_tempFails hfetch hcreates hf]
        simp
      | false =>
        rw [allOrNothing_swap hcb htc htb hfetch hcreates hf]
        simp

/-- A key, and a program of one byte with its SHA-256 sum and its Ed25519 signature. -/
def agentKey : GoString :=
  [61,64,23,195,232,67,137,90,146,183,10,167,77,27,126,188,156,152,44,207,46,196,150,140,
    192,205,85,241,42,244,102,12]
def newAgent : GoString := [114]
def newAgentSum : GoString :=
  [69,67,73,228,34,240,82,151,25,30,173,19,226,29,61,181,32,229,171,239,82,5,94,73,100,184,
    47,178,19,245,147,161]
def newAgentSignature : GoString :=
  [146,160,9,169,240,212,202,184,114,14,130,11,95,100,37,64,162,178,123,84,22,80,63,143,
    179,118,34,35,235,219,105,218,8,90,193,228,62,21,153,110,69,143,54,19,208,241,29,140,56,
    123,46,174,180,48,42,238,176,13,41,22,18,187,12,0]

def agent : Updater := ⟨"agent","agent.bak",agentKey⟩
def installed : Disk := write (write (fun _ => none) "agent" [1]) "agent.bak" [0]
def request : UpdateRequest := ⟨"https://updates/agent",hex newAgentSum,newAgentSignature⟩

def worldWith (fails : FileOp → Option String) : World where
  get := fun _ => .answered 200 newAgent none
  fails := fails
  tmpPath := "update-1"
  written := 0
  sum256 := fun data => if data=newAgent then newAgentSum else []
  verify := fun key data sig => key=agentKey&&data=newAgent&&sig=newAgentSignature

theorem apply_allOrNothing_agent : AllOrNothing agent (worldWith fun _ => none) request installed :=
  (apply_allOrNothing_iff agent (worldWith fun _ => none) request installed (by decide) (by decide)
    (by decide)).mpr fun _ _ => by decide

def installFails (op : FileOp) : Option String := if op=.install then some "text busy" else none

theorem apply_loses_backup : ¬ ∀ (u : Updater) (w : World) (req : UpdateRequest) (disk : Disk),
      u.currentPath≠u.backupPath → w.tmpPath≠u.currentPath → w.tmpPath≠u.backupPath →
      w.fails .restore=none → AllOrNothing u w req disk := by
  intro h
  have hsame:=h agent (worldWith installFails) request installed (by decide) (by decide)
    (by decide) rfl
  have hbackup : installed "agent.bak"=some [0] := rfl
  have hgone : (apply agent (worldWith installFails) request installed).1 "agent.bak"=none := rfl
  exact absurd (hgone.symm.trans (hsame.2.1.trans hbackup)) (by decide)

end OpsAgent.Update
