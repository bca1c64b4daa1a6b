import OpsAgent.Collector.Syslog

/-!
# Messages of RFC 5424 and what the parser makes of them

The grammar of RFC 5424 without its upper bounds on lengths.
-/

namespace OpsAgent.Collector.Syslog
open Lib Lib.GoSlices List
open Lib.Atoi (atoi isDigit atoi_decimal decimal_spec)
open Lib.GoStrings (GoString utf8 decimal)

structure Word where
  text : GoString
  nonempty : text≠[]
  printable : ∀ b∈text, 33≤b ∧ b≤126

structure SDName extends Word where
  plain : ∀ b∈text, b∉utf8 "=]\""

structure SDParam where
  name : SDName
  value : GoString

structure SDElement where
  id : SDName
  params : List SDParam

structure RFC5424 where
  pri : Fin 192
  version : Nat
  versioned : 1≤version ∧ version≤999
  (timestamp hostname appName procID msgID : Word)
  structuredData : List SDElement
  msg : Option GoString

def escape (value : GoString) : GoString :=
  value.flatMap fun b => if b∈utf8 "\"\\]" then [0x5c,b] else [b]
def SDParam.text (p : SDParam) : GoString :=
  0x20::p.name.text++0x3d::0x22::(escape p.value++[0x22])
def SDElement.inner (e : SDElement) : GoString := e.id.text++e.params.flatMap SDParam.text
def SDElement.text (e : SDElement) : GoString := 0x5b::(e.inner++[0x5d])

namespace RFC5424

def dataText (m : RFC5424) : GoString :=
  if m.structuredData=[] then [0x2d] else m.structuredData.flatMap SDElement.text
def msgText (m : RFC5424) : GoString := m.msg.elim [] fun text => 0x20::text
def serialize (m : RFC5424) : GoString :=
  0x3c::(decimal m.pri++0x3e::(decimal m.version++0x20::(m.timestamp.text++0x20 ::
    (m.hostname.text++0x20::(m.appName.text++0x20::(m.procID.text++0x20 ::
      (m.msgID.text++0x20::(m.dataText++m.msgText))))))))

structure ReadAs (m : RFC5424) (x : Message) : Prop where
  facility : x.facility=(m.pri / 8 : Nat)
  severity : x.severity=(m.pri % 8 : Nat)
  hostname : x.hostname=m.hostname.text
  appName : x.appName=m.appName.text
  procID : x.procID=m.procID.text
  msgID : x.msgID=m.msgID.text
  message : x.message=m.msg.getD []

theorem blank_notMem (w : Word) : 0x20∉w.text := by
  intro h
  exact absurd (w.printable _ h).1 (by decide)
theorem notMem_decimal (n : Nat) {c : UInt8} (hc : isDigit c=false) : c∉decimal (n : Int) := by
  intro h
  rw [(decimal_spec n).2.1 c h] at hc
  cases hc

theorem parse_serialize (quote : GoString → String) (m : RFC5424) :
    ∃ stamp data, skipStructuredData (m.dataText++m.msgText)=pure data ∧
      parse quote m.serialize=pure ⟨(m.pri / 8 : Nat),(m.pri % 8 : Nat),stamp,m.hostname.text,
        m.appName.text,m.procID.text,m.msgID.text,data⟩ := by
  obtain ⟨data,hdata⟩ := skipStructuredData_returns (m.dataText++m.msgText)
  obtain ⟨hne,hdigits,-⟩ := decimal_spec m.version
  obtain ⟨b,ds,hversion⟩ := exists_cons_of_ne_nil hne
  have hb : isDigit b := hdigits b (by rw [hversion]; exact mem_cons_self)
  have hhead : ∀ rest, (decimal m.version++rest).head?=some b := by
    intro rest
    rw [hversion]
    rfl
  have hpri : atoi (decimal m.pri)=.ok (m.pri : Int) := atoi_decimal (by omega)
  have hblank:=notMem_decimal m.version (c := 0x20) rfl
  refine ⟨(TimeLayout.parse rfc3339Nano m.timestamp.text).getD 0,data,hdata,?_⟩
  rw [serialize,parse_split quote (notMem_decimal m.pri rfl),hpri]
  simp only [hhead,hb,if_true,parseRFC5424,cutField_append _ hblank,
    cutField_append _ (blank_notMem _),pure_bind,hdata]
  rfl

theorem mem_escape {c : UInt8} (h : c≠0x5c) (value : GoString) : c∈escape value ↔ c∈value := by
  simp only [escape,mem_flatMap]
  constructor
  · rintro ⟨b,hb,hc⟩
    split at hc
    · simp only [mem_cons,h,not_mem_nil,or_false,false_or] at hc
      exact hc ▸ hb
    · exact mem_singleton.mp hc ▸ hb
  · intro hc
    refine ⟨c,hc,?_⟩
    split <;> simp

theorem bracket_mem_inner (e : SDElement) : 0x5d∈e.inner ↔ ∃ p∈e.params, 0x5d∈p.value := by
  have hname : ∀ n : SDName, 0x5d∉n.text := fun n h => n.plain _ h (by decide)
  have hparam : ∀ p : SDParam, 0x5d∈p.text ↔ 0x5d∈p.value := by
    intro p
    rw [← mem_escape (by decide) p.value]
    simp [SDParam.text,hname]
  simp [SDElement.inner,hname,hparam]

theorem skipStructuredData_element {a : GoString} (h : 0x5d∉a) (b : GoString) :
    skipStructuredData (0x5b::(a++0x5d::b))=pure (skipSpace b) := by
  have hmem : 0x5d∉(0x5b : UInt8)::a := by
    rw [mem_cons,not_or]
    exact ⟨by decide,h⟩
  have hidx:=indexByte_append hmem b
  have hrest:=sliceFrom_append (0x5b::a) 0x5d b
  rw [cons_append] at hidx hrest
  simp only [skipStructuredData,head?_cons,hidx,hrest,lift_bind]
  rfl

theorem skipStructuredData_early {a : GoString} (h : 0x5d∈a) (b : GoString) :
    ∃ rest, skipStructuredData (0x5b::(a++0x5d::b))=pure (rest++0x5d::b) := by
  obtain ⟨a,c,rfl,ha⟩ := eq_append_cons_of_mem h
  rw [append_assoc,cons_append,skipStructuredData_element ha]
  cases c with
  | nil => exact ⟨[],rfl⟩
  | cons x c =>
    by_cases hx : x=0x20
    · rw [hx]
      exact ⟨c,rfl⟩
    · refine ⟨x::c,?_⟩
      rw [cons_append,skipSpace]
      exact fun rest heq => hx (cons.inj heq).1

theorem skipSpace_msgText (m : RFC5424) : skipSpace m.msgText=m.msg.getD [] := by
  cases h : m.msg <;> simp [msgText,h,skipSpace]

def Skipped (m : RFC5424) : Prop :=
  m.structuredData=[] ∨
    ∃ e, m.structuredData=[e] ∧ ∀ p∈e.params, 0x5d∉p.value

theorem flatMap_text (e : SDElement) (es : List SDElement) :
    ∃ a, (e::es).flatMap SDElement.text=0x5b::(a++[0x5d]) ∧ (0x5d∈a ↔ es≠[] ∨ 0x5d∈e.inner) := by
  rcases eq_nil_or_concat es with rfl | ⟨es,last,rfl⟩
  · exact ⟨e.inner,by simp [SDElement.text],by simp⟩
  · exact ⟨e.inner++0x5d::(es.flatMap SDElement.text++0x5b::last.inner),
      by simp [SDElement.text],by simp⟩

theorem skipStructuredData_iff (m : RFC5424) :
    skipStructuredData (m.dataText++m.msgText)=pure (m.msg.getD []) ↔ m.Skipped := by
  have hmsg:=skipSpace_msgText m
  unfold dataText Skipped
  cases m.structuredData with
  | nil =>
    rw [if_pos rfl,← hmsg]
    exact iff_of_true rfl (.inl rfl)
  | cons e es =>
    obtain ⟨a,htext,hmem⟩ := flatMap_text e es
    rw [if_neg (cons_ne_nil e es),htext,cons_append,append_assoc]
    by_cases ha : 0x5d∈a
    · obtain ⟨rest,hrest⟩ := skipStructuredData_early ha m.msgText
      refine iff_of_false (fun heq => ?_) ?_
      · have hlength:=congrArg length (Except.ok.inj (Option.some.inj (hrest.symm.trans heq)))
        rw [length_append,length_cons] at hlength
        have hshort : (m.msg.getD []).length ≤ m.msgText.length := by
          cases h : m.msg <;> simp [msgText,h]
        omega
      · rintro (hnil | ⟨e',heq,hplain⟩)
        · cases hnil
        · cases heq
          obtain ⟨p,hp,hvalue⟩ := (bracket_mem_inner e).mp ((hmem.mp ha).resolve_left (by simp))
          exact hplain p hp hvalue
    · refine iff_of_true ((skipStructuredData_element ha m.msgText).trans (by rw [hmsg])) ?_
      rw [hmem,not_or,not_not,bracket_mem_inner] at ha
      exact .inr ⟨e,by rw [ha.1],fun p hp hvalue => ha.2 ⟨p,hp,hvalue⟩⟩

/- The parts of a message are read back exactly if its structured data have no closing bracket
before the last byte. -/
theorem parse_serialize_iff (quote : GoString → String) (m : RFC5424) :
    (∃ x, parse quote m.serialize=pure x ∧ m.ReadAs x) ↔ m.Skipped := by
  obtain ⟨stamp,data,hdata,hparse⟩ := parse_serialize quote m
  rw [← skipStructuredData_iff,hdata,hparse]
  constructor
  · rintro ⟨x,hx,hread⟩
    cases hx
    rw [← hread.message]
  · intro h
    cases h
    exact ⟨_,rfl,rfl,rfl,rfl,rfl,rfl,rfl,rfl⟩

/- `<34>1 - host app - - [a b="\]"] hi` -/
def bracketMessage : RFC5424 where
  pri := 34
  version := 1
  versioned := by decide
  timestamp := ⟨utf8 "-",by decide,by decide +kernel⟩
  hostname := ⟨utf8 "host",by decide,by decide +kernel⟩
  appName := ⟨utf8 "app",by decide,by decide +kernel⟩
  procID := ⟨utf8 "-",by decide,by decide +kernel⟩
  msgID := ⟨utf8 "-",by decide,by decide +kernel⟩
  structuredData := [⟨⟨⟨utf8 "a",by decide,by decide +kernel⟩,by decide +kernel⟩,
    [⟨⟨⟨utf8 "b",by decide,by decide +kernel⟩,by decide +kernel⟩,utf8 "]"⟩]⟩]
  msg := some (utf8 "hi")

theorem parse_bracketMessage : bracketMessage.msg=some (utf8 "hi") ∧ ∀ quote : GoString → String,
      ∃ x, parse quote bracketMessage.serialize=pure x ∧ x.message=utf8 "\"] hi" := by
  refine ⟨rfl,fun quote => ?_⟩
  obtain ⟨stamp,data,hdata,hparse⟩ := parse_serialize quote bracketMessage
  have hskip : skipStructuredData (bracketMessage.dataText++bracketMessage.msgText) =
      pure (utf8 "\"] hi") := rfl
  cases hdata.symm.trans hskip
  exact ⟨_,hparse,rfl⟩

end RFC5424
end OpsAgent.Collector.Syslog
