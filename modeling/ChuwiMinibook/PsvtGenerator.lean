import ChuwiMinibook.GddvEncoding

namespace ChuwiMinibook.PsvtGenerator
open ByteScan GddvParser GddvReads

-- The input of gddv_test_gen.py. A limit that is not one of the two words is a
-- decimal number, written without leading zeros.
structure Ascii where
  text : String
  plain : ∀ c ∈ text.toList,0 < c.toNat ∧ c.toNat < 128

theorem plain_all {s : String} (all : s.toList.all (fun c => decide (0 < c.toNat ∧ c.toNat < 128)) = true) :
    ∀ c ∈ s.toList,0 < c.toNat ∧ c.toNat < 128 :=
  fun c inside => of_decide_eq_true (List.all_eq_true.mp all c inside)

abbrev Numeric := {n : Nat // n < 2147483648}

inductive Limit where
  | min
  | max
  | number (n : Nat)

def Limit.text : Limit → String
  | min => "MIN"
  | max => "MAX"
  | number n => toString n

structure Row where
  source : Ascii
  target : Ascii
  priority : Numeric
  samplePeriod : Numeric
  temperature : Nat
  warm : 1 ≤ temperature ∧ temperature ≤ 1000000
  domain : Numeric
  controlKnob : Numeric
  limit : Limit
  stepSize : Numeric
  limitCoeff : Numeric
  unlimitCoeff : Numeric

structure Table where
  name : Ascii
  named : name.text ≠ ""
  single : '/' ∉ name.text.toList
  rows : List Row
  filled : rows ≠ []

-- int.to_bytes raises when the value does not fit; none is that exception.
def toBytes (value n : Nat) : Option Bytes := if value < 256^n then some (encode n value) else none

def createUintu64 (value : Nat) : Option Bytes := do
  let content ← toBytes value 8
  return encode 4 4++content

def createString (value : String) : Option Bytes := do
  let length ← toBytes (value.length+1) 8
  return encode 4 8++length++(ascii value++[0])

def createKey (key : String) (val : Bytes) : Option Bytes := do
  let keyLength ← toBytes (key.length+1) 4
  let valLength ← toBytes val.length 4
  return encode 4 0++(keyLength++((ascii key++[0])++(encode 4 0++(valLength++val))))

def createHeader : Bytes := [0xE5,0x1F,0x0C,0x00,0x00,0x00,0x00,0x01,0x00,0x00,0x00,0x00]

def createLimit : Limit → Option Bytes
  | .number n => createUintu64 n
  | limit => createString limit.text

def padding : Bytes := [0,0,0,0,0,0,0,0,0,0,0,0]

def createRow (r : Row) : Option Bytes := do
  let source ← createString r.source.text
  let target ← createString r.target.text
  let priority ← createUintu64 r.priority
  let samplePeriod ← createUintu64 r.samplePeriod
  let temp ← createUintu64 (r.temperature*10+2727)
  let domain ← createUintu64 r.domain
  let controlKnob ← createUintu64 r.controlKnob
  let limit ← createLimit r.limit
  let stepSize ← createUintu64 r.stepSize
  let limitCoeff ← createUintu64 r.limitCoeff
  let unlimitCoeff ← createUintu64 r.unlimitCoeff
  return source++(target++(priority++(samplePeriod++(temp++(domain++(controlKnob++(limit++(stepSize++(limitCoeff++
    (unlimitCoeff++padding))))))))))

-- A loop that appends what each round writes.
def createAll {ρ : Type} (create : ρ → Option Bytes) : List ρ → Option Bytes
  | [] => some []
  | x::rest => do
    let first ← create x
    let more ← createAll create rest
    return first++more

def createTable (t : Table) : Option Bytes := do
  let version ← createUintu64 2
  let rows ← createAll createRow t.rows
  createKey ("/shared/tables/psvt/"++t.name.text) (version++rows)

def createGddv (tables : List Table) : Option Bytes := do
  let psvts ← createAll createTable tables
  return createHeader++psvts

-- The tables as the parser keeps them.
def Row.psv (r : Row) : Psv :=
  ⟨r.source.text,r.target.text,r.priority.1,r.samplePeriod.1,(r.temperature*10+2727 : Nat),r.domain.1,r.controlKnob.1,
    r.limit.text,r.stepSize.1,r.limitCoeff.1,r.unlimitCoeff.1⟩

def Table.psvt (t : Table) : Psvt := ⟨t.name.text,t.rows.map Row.psv⟩

-- What a script that completes has written.
def Ascii.content (a : Ascii) : Bytes := ascii a.text++[0]

def Limit.bytes : Limit → Bytes
  | .number n => GddvEncoding.number n
  | limit => GddvEncoding.text (ascii limit.text++[0])

def Limit.Fits : Limit → Prop
  | .number n => n < 18446744073709551616
  | _ => True

def Row.bytes (r : Row) : Bytes :=
  GddvEncoding.text r.source.content++(GddvEncoding.text r.target.content++(GddvEncoding.number r.priority++
    (GddvEncoding.number r.samplePeriod++(GddvEncoding.number (r.temperature*10+2727)++(GddvEncoding.number r.domain++
      (GddvEncoding.number r.controlKnob++(r.limit.bytes++(GddvEncoding.number r.stepSize++
        (GddvEncoding.number r.limitCoeff++(GddvEncoding.number r.unlimitCoeff++padding))))))))))

def Table.record (t : Table) : GddvEncoding.KeyRecord where
  keyflags := 0
  key := ascii ("/shared/tables/psvt/"++t.name.text)++[0]
  valtype := 0
  val := GddvEncoding.number 2++t.rows.flatMap Row.bytes

theorem length_ascii (s : String) : (ascii s).length = s.length := by
  rw [ascii,List.length_map,String.length_toList]

theorem toBytes_some {value n : Nat} {b : Bytes} (written : toBytes value n = some b) :
    b = encode n value ∧ value < 256^n := by
  unfold toBytes at written
  split at written
  · next fits => exact ⟨(Option.some.inj written).symm,fits⟩
  · cases written

theorem createUintu64_some {value : Nat} {b : Bytes} (written : createUintu64 value = some b) :
    b = GddvEncoding.number value ∧ value < 18446744073709551616 := by
  obtain ⟨content,converted,same⟩ := Option.bind_eq_some_iff.mp written
  obtain ⟨rfl,fits⟩ := toBytes_some converted
  exact ⟨(Option.some.inj same).symm,fits⟩

theorem createString_some {value : String} {b : Bytes} (written : createString value = some b) :
    b = GddvEncoding.text (ascii value++[0]) := by
  obtain ⟨length,converted,same⟩ := Option.bind_eq_some_iff.mp written
  obtain ⟨rfl,-⟩ := toBytes_some converted
  rw [GddvEncoding.text,List.length_append,length_ascii]
  exact (Option.some.inj same).symm

theorem createLimit_some {limit : Limit} {b : Bytes} (written : createLimit limit = some b) :
    b = limit.bytes ∧ limit.Fits := by
  cases limit with
  | min => exact ⟨createString_some written,trivial⟩
  | max => exact ⟨createString_some written,trivial⟩
  | number n => exact createUintu64_some written

theorem createRow_some {r : Row} {b : Bytes} (written : createRow r = some b) : b = r.bytes ∧ r.limit.Fits := by
  obtain ⟨source,made,written⟩ := Option.bind_eq_some_iff.mp written
  cases createString_some made
  obtain ⟨target,made,written⟩ := Option.bind_eq_some_iff.mp written
  cases createString_some made
  obtain ⟨priority,made,written⟩ := Option.bind_eq_some_iff.mp written
  cases (createUintu64_some made).1
  obtain ⟨samplePeriod,made,written⟩ := Option.bind_eq_some_iff.mp written
  cases (createUintu64_some made).1
  obtain ⟨temp,made,written⟩ := Option.bind_eq_some_iff.mp written
  cases (createUintu64_some made).1
  obtain ⟨domain,made,written⟩ := Option.bind_eq_some_iff.mp written
  cases (createUintu64_some made).1
  obtain ⟨controlKnob,made,written⟩ := Option.bind_eq_some_iff.mp written
  cases (createUintu64_some made).1
  obtain ⟨limit,made,written⟩ := Option.bind_eq_some_iff.mp written
  obtain ⟨rfl,fits⟩ := createLimit_some made
  obtain ⟨stepSize,made,written⟩ := Option.bind_eq_some_iff.mp written
  cases (createUintu64_some made).1
  obtain ⟨limitCoeff,made,written⟩ := Option.bind_eq_some_iff.mp written
  cases (createUintu64_some made).1
  obtain ⟨unlimitCoeff,made,written⟩ := Option.bind_eq_some_iff.mp written
  cases (createUintu64_some made).1
  exact ⟨(Option.some.inj written).symm,fits⟩

theorem createAll_some {ρ : Type} {create : ρ → Option Bytes} {encoded : ρ → Bytes} {holds : ρ → Prop}
    (each : ∀ x b,create x = some b → b = encoded x ∧ holds x) {records : List ρ} {b : Bytes}
    (written : createAll create records = some b) : b = records.flatMap encoded ∧ ∀ x ∈ records,holds x := by
  induction records generalizing b with
  | nil => exact ⟨(Option.some.inj written).symm,fun x listed => by cases listed⟩
  | cons x rest ih =>
    obtain ⟨first,made,written⟩ := Option.bind_eq_some_iff.mp written
    obtain ⟨more,others,written⟩ := Option.bind_eq_some_iff.mp written
    obtain ⟨rfl,here⟩ := each x first made
    obtain ⟨rfl,later⟩ := ih others
    refine ⟨(Option.some.inj written).symm,?_⟩
    intro y listed
    rcases List.mem_cons.mp listed with rfl | behind
    · exact here
    · exact later y behind

theorem createTable_some {t : Table} {b : Bytes} (written : createTable t = some b) :
    b = t.record.bytes ∧ ∀ r ∈ t.rows,r.limit.Fits := by
  have each : ∀ r b,createRow r = some b → b = r.bytes ∧ r.limit.Fits := fun r b => createRow_some
  rw [createTable,Option.bind_eq_bind,Option.bind_eq_some_iff] at written
  obtain ⟨version,made,written⟩ := written
  obtain ⟨rfl,-⟩ := createUintu64_some made
  obtain ⟨rows,made,written⟩ := Option.bind_eq_some_iff.mp written
  obtain ⟨rfl,fits⟩ := createAll_some each made
  refine ⟨?_,fits⟩
  obtain ⟨keyLength,made,written⟩ := Option.bind_eq_some_iff.mp written
  obtain ⟨rfl,-⟩ := toBytes_some made
  obtain ⟨valLength,made,written⟩ := Option.bind_eq_some_iff.mp written
  obtain ⟨rfl,-⟩ := toBytes_some made
  rw [GddvEncoding.KeyRecord.bytes,Table.record,List.length_append,length_ascii]
  exact (Option.some.inj written).symm

theorem createGddv_some {tables : List Table} {b : Bytes} (written : createGddv tables = some b) :
    b = createHeader++tables.flatMap (fun t => t.record.bytes) ∧ ∀ t ∈ tables,∀ r ∈ t.rows,r.limit.Fits := by
  have each : ∀ t b,createTable t = some b → b = t.record.bytes ∧ ∀ r ∈ t.rows,r.limit.Fits :=
    fun t b => createTable_some
  obtain ⟨psvts,made,written⟩ := Option.bind_eq_some_iff.mp written
  obtain ⟨rfl,fits⟩ := createAll_some each made
  exact ⟨(Option.some.inj written).symm,fits⟩

end ChuwiMinibook.PsvtGenerator
