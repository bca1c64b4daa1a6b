import Mathlib.Data.List.TakeWhile
import OpsAgent.Lib.QuotedText
import OpsAgent.Lib.ShellWords

/-!
# The command line of the SSH proxy (`gateway/proxy/ssh.go`)
-/

namespace OpsAgent.Proxy
open Lib.GoStrings List
open Lib.ShellWords
open Lib.QuotedText (replaceAll)

def shellQuote (s : GoString) : GoString :=
  utf8 "'"++replaceAll 0x27 (utf8 "'\\''") s++utf8 "'"
def fullCmd (command : GoString) (args : List GoString) : GoString :=
  args.foldl (fun cmd arg => cmd++(utf8 " "++shellQuote arg)) (shellQuote command)

theorem shellQuote_eq (s : GoString) : shellQuote s=quote s := rfl

theorem fullCmd_eq (command : GoString) (args : List GoString) :
    fullCmd command args=quote command++args.flatMap fun arg => 0x20::quote arg := by
  have hfold : ∀ cmd : GoString, args.foldl (fun cmd arg => cmd++(utf8 " "++shellQuote arg)) cmd =
      cmd++args.flatMap fun arg => 0x20::quote arg := by
    induction args with
    | nil => exact fun cmd => (append_nil cmd).symm
    | cons arg args ih =>
      intro cmd
      rw [foldl_cons,ih,flatMap_cons,shellQuote_eq,append_assoc,append_assoc]
      rfl
  rw [fullCmd,hfold,shellQuote_eq]

theorem fullCmd_no_nul {command : GoString} {args : List GoString} (hc : (0 : UInt8)∉command)
    (ha : ∀ arg∈args, (0 : UInt8)∉arg) : ∀ b∈fullCmd command args, (b != 0)=true := by
  intro b hb
  rw [bne_iff_ne]
  rintro rfl
  rw [fullCmd_eq,mem_append,mem_flatMap] at hb
  have hquote : ∀ s : GoString, (0 : UInt8)∉s → (0 : UInt8)∉quote s := by
    intro s hs hmem
    rcases mem_quote hmem with h | h | h
    · exact hs h
    · cases h
    · cases h
  rcases hb with hb | ⟨arg,harg,hb⟩
  · exact hquote command hc hb
  · rcases mem_cons.mp hb with h | h
    · cases h
    · exact hquote arg (ha arg harg) h

/-- The remote shell reads the command and the arguments as they are, and every byte of them is
quoted. -/
theorem fullCmd_words (command : GoString) (args : List GoString) (hc : (0 : UInt8)∉command)
    (ha : ∀ arg∈args, (0 : UInt8)∉arg) :
    tokens (fullCmd command args)=some ((command::args).map literalWord) := by
  have hwhole : (fullCmd command args).takeWhile (· != 0)=fullCmd command args :=
    takeWhile_eq_self_iff.mpr (fullCmd_no_nul hc ha)
  rw [tokens,hwhole,fullCmd_eq]
  exact read_quoted command args

theorem fullCmd_words_quotes :
    tokens (fullCmd (utf8 "echo") [utf8 "it's",[],utf8 "$(rm -rf ~) `id`\n; a\\b"]) =
      some (([utf8 "echo",utf8 "it's",[],utf8 "$(rm -rf ~) `id`\n; a\\b"]).map literalWord) :=
  fullCmd_words (utf8 "echo") [utf8 "it's",[],utf8 "$(rm -rf ~) `id`\n; a\\b"] (by decide) (by decide)

end OpsAgent.Proxy
