import OpsAgent.Lib.GoStrings

/-!
# The environment of a plugin process (`pluginruntime/gateway.go`)

The process cuts each text at its first `=`, and a later one takes precedence.
-/

namespace OpsAgent.PluginRuntime.Environment
open Lib.GoStrings List

def equals : UInt8 := 0x3d
def loaderVars : List GoString :=
  [utf8 "LD_PRELOAD",utf8 "LD_LIBRARY_PATH",utf8 "DYLD_INSERT_LIBRARIES"]
def assignment (p : GoString × GoString) : GoString := p.1++equals::p.2

/-- The map is given as its pairs in the order of the loop. -/
def buildPluginEnv (socketPath : GoString) (manifestEnv : List (GoString × GoString)) : List GoString :=
  [utf8 "PATH=/usr/local/sbin:/usr/local/bin:/usr/sbin:/usr/bin:/sbin:/bin",
    utf8 "OPSAGENT_PLUGIN_SOCKET="++socketPath] ++
  (manifestEnv.filter fun p => !loaderVars.contains p.1).map assignment

/-- The environment of the process; the errors are those of `os.Stat` and `cmd.Start`. -/
def startProcess (statError startError : Option GoString) (manifestEnv : List (GoString × GoString))
    (socketPath : GoString) : Except GoString (List GoString) :=
  match statError, startError with
  | some err, _ => .error (utf8 "plugin binary not found: "++err)
  | none, some err => .error (utf8 "start plugin binary: "++err)
  | none, none => .ok (buildPluginEnv socketPath manifestEnv)

def nameOf (text : GoString) : GoString := text.takeWhile (· != equals)
def valueOf (text : GoString) : GoString := text.drop ((nameOf text).length+1)
def getenv (env : List GoString) (name : GoString) : Option GoString :=
  (env.reverse.find? (nameOf · == name)).map valueOf
def socketVar : GoString := utf8 "OPSAGENT_PLUGIN_SOCKET"

/-- What the gateway relies on, for the path where it waits. -/
structure Sealed (socketPath : GoString) (env : List GoString) : Prop where
  loader : ∀ name∈loaderVars, getenv env name=none
  socket : getenv env socketVar=some socketPath

variable {env : List GoString} {name text socketPath : GoString}
  {m : List (GoString × GoString)} {p : GoString × GoString}

theorem getenv_eq_none_iff : getenv env name=none ↔ ∀ text∈env, nameOf text≠name := by simp [getenv]

theorem nameOf_append (h : equals∉name) (value : GoString) : nameOf (name++equals::value)=name := by
  have hall : ∀ c∈name, (c != equals)=true := by
    intro c hc
    rw [bne_iff_ne]
    rintro rfl
    exact h hc
  rw [nameOf,takeWhile_append_of_pos hall,takeWhile_cons_of_neg (by simp),append_nil]

theorem text_eq (h : equals∈text) : text=nameOf text++equals::valueOf text := by
  obtain ⟨before,after,rfl,hbefore⟩ := eq_append_cons_of_mem h
  rw [valueOf,nameOf_append hbefore]
  simp

theorem mem_buildPluginEnv : text∈buildPluginEnv socketPath m ↔
    text=utf8 "PATH=/usr/local/sbin:/usr/local/bin:/usr/sbin:/usr/bin:/sbin:/bin" ∨
    text=socketVar++equals::socketPath ∨ ∃ p∈m, p.1∉loaderVars ∧ assignment p=text := by
  have hsocket : utf8 "OPSAGENT_PLUGIN_SOCKET="++socketPath=socketVar++equals::socketPath := rfl
  simp [buildPluginEnv,hsocket,and_assoc]

theorem nameOf_path :
    nameOf (utf8 "PATH=/usr/local/sbin:/usr/local/bin:/usr/sbin:/usr/bin:/sbin:/bin")=utf8 "PATH" := by
  decide +kernel
theorem nameOf_socket (socketPath : GoString) : nameOf (socketVar++equals::socketPath)=socketVar :=
  nameOf_append (by decide +kernel) socketPath

/-- The text defines no variable of the loader, and the socket only as it is. -/
def Harmless (socketPath text : GoString) : Prop :=
  nameOf text∉loaderVars ∧ (nameOf text=socketVar → text=socketVar++equals::socketPath)

theorem harmless_of_mem (h : ∀ p∈m, p.1∉loaderVars → Harmless socketPath (assignment p))
    (htext : text∈buildPluginEnv socketPath m) : Harmless socketPath text := by
  obtain rfl | rfl | ⟨p,hp,hkey,rfl⟩ := mem_buildPluginEnv.mp htext
  · rw [Harmless,nameOf_path]
    exact ⟨by decide +kernel,fun hname => absurd hname (by decide +kernel)⟩
  · rw [Harmless,nameOf_socket]
    exact ⟨by decide +kernel,fun _ => rfl⟩
  · exact h p hp hkey

theorem sealed_buildPluginEnv (h : ∀ p∈m, p.1∉loaderVars → Harmless socketPath (assignment p)) :
    Sealed socketPath (buildPluginEnv socketPath m) := by
  constructor
  · intro name hname
    rw [getenv_eq_none_iff]
    rintro text htext rfl
    exact (harmless_of_mem h htext).1 hname
  · cases hfind : (buildPluginEnv socketPath m).reverse.find? (nameOf · == socketVar) with
    | none =>
      have hsome:=find?_eq_none.mp hfind _ (mem_reverse.mpr (mem_buildPluginEnv.mpr (.inr (.inl rfl))))
      rw [nameOf_socket] at hsome
      exact absurd (beq_self_eq_true _) hsome
    | some text =>
      have hname:=find?_some hfind
      rw [beq_iff_eq] at hname
      have htext:=(harmless_of_mem h (mem_reverse.mp (mem_of_find?_eq_some hfind))).2 hname
      rw [getenv,hfind,Option.map_some,valueOf,hname,htext]
      simp

theorem getenv_last (env : List GoString) (text : GoString) :
    getenv (env++[text]) (nameOf text)=some (valueOf text) := by simp [getenv]

theorem harmless_of_sealed (hp : p∈m) (hkey : p.1∉loaderVars)
    (h : ∀ order, order ~ m → Sealed socketPath (buildPluginEnv socketPath order)) :
    Harmless socketPath (assignment p) := by
  -- the loop may meet this pair last
  obtain ⟨before,after,hm⟩ := append_of_mem hp
  have horder : before++after++[p] ~ m := by
    rw [hm,append_assoc]
    exact perm_append_comm.append_left before
  have hlast : buildPluginEnv socketPath (before++after++[p]) =
      buildPluginEnv socketPath (before++after)++[assignment p] := by
    simp [buildPluginEnv,filter_append,hkey]
  have hsealed:=h _ horder
  rw [hlast] at hsealed
  have hvalue:=getenv_last (buildPluginEnv socketPath (before++after)) (assignment p)
  constructor
  · intro hname
    rw [hsealed.loader _ hname] at hvalue
    cases hvalue
  · intro hname
    rw [hname,hsealed.socket,Option.some_inj] at hvalue
    have htext : assignment p=_ := text_eq (mem_append_right p.1 mem_cons_self)
    rw [htext,hname,← hvalue]

/-- A manifest can define a variable of the loader by a key with `=`, and the socket by its name. -/
theorem environment_sealed_iff (m : List (GoString × GoString)) (socketPath : GoString) :
    (∀ order, order ~ m → ∀ statError startError env,
      startProcess statError startError order socketPath=.ok env → Sealed socketPath env) ↔
    ∀ p∈m, p.1∉loaderVars → Harmless socketPath (assignment p) := by
  constructor
  · intro h p hp hkey
    exact harmless_of_sealed hp hkey fun order horder => h order horder none none _ rfl
  · intro h order horder statError startError env hstart
    have henv : env=buildPluginEnv socketPath order := by
      unfold startProcess at hstart
      split at hstart
      · cases hstart
      · cases hstart
      · exact (Except.ok.inj hstart).symm
    rw [henv]
    exact sealed_buildPluginEnv fun p hp => h p (horder.subset hp)

theorem environment_defines_preload :
    getenv (buildPluginEnv (utf8 "/tmp/p.sock") [(utf8 "LD_PRELOAD=/tmp/a.so:",utf8 "x")])
      (utf8 "LD_PRELOAD")=some (utf8 "/tmp/a.so:=x") ∧
    getenv (buildPluginEnv (utf8 "/tmp/p.sock") [(socketVar,utf8 "/tmp/q.sock")]) socketVar =
      some (utf8 "/tmp/q.sock") ∧ ¬ Sealed (utf8 "/tmp/p.sock")
      (buildPluginEnv (utf8 "/tmp/p.sock") [(utf8 "LD_PRELOAD=/tmp/a.so:",utf8 "x")]) := by
  have hpreload : getenv (buildPluginEnv (utf8 "/tmp/p.sock") [(utf8 "LD_PRELOAD=/tmp/a.so:",utf8 "x")])
      (utf8 "LD_PRELOAD")=some (utf8 "/tmp/a.so:=x") := by decide +kernel
  refine ⟨hpreload,by decide +kernel,fun h => ?_⟩
  have hnone:=h.loader (utf8 "LD_PRELOAD") mem_cons_self
  cases hpreload.symm.trans hnone

end OpsAgent.PluginRuntime.Environment
