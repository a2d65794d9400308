import ChuwiMinibook.PsvtGenerator

namespace ChuwiMinibook.PsvtRoundTrip
open ByteScan Scan GddvTables GddvParser GddvReads GddvLoops PsvtGenerator

theorem ascii_toNat {c : Char} (low : c.toNat < 128) : c.toNat.toUInt8.toNat = c.toNat := by
  rw [Nat.toUInt8,UInt8.toNat_ofNat']
  omega

theorem ascii_byte {s : String} {b : UInt8} (plain : ∀ c ∈ s.toList,0 < c.toNat ∧ c.toNat < 128) (listed : b ∈ ascii s) :
    b ≠ 0 := by
  obtain ⟨c,inside,rfl⟩ := List.mem_map.mp listed
  intro zero
  have same := ascii_toNat (plain c inside).2
  rw [zero] at same
  have positive := (plain c inside).1
  exact absurd same (by simp only [UInt8.toNat_zero]; omega)

theorem toText_ascii {s : String} (plain : ∀ c ∈ s.toList,0 < c.toNat ∧ c.toNat < 128) : toText (ascii s) = s := by
  have same : (ascii s).map (fun b => Char.ofNat b.toNat) = s.toList := by
    rw [ascii,List.map_map]
    refine (List.map_congr_left ?_).trans (List.map_id _)
    intro c inside
    simp only [Function.comp_apply,ascii_toNat (plain c inside).2,Char.ofNat_toNat,id]
  rw [toText,same,String.ofList_toList]

-- A string of the script is read back.
theorem text_read {s : String} (plain : ∀ c ∈ s.toList,0 < c.toNat ∧ c.toNat < 128) :
    toText ((ascii s++[0]).takeWhile (· ≠ 0)) = s := by
  rw [List.takeWhile_append_of_pos]
  · rw [List.takeWhile_cons,if_neg (by simp),List.append_nil,toText_ascii plain]
  · intro b listed
    exact decide_eq_true (ascii_byte plain listed)

theorem ascii_append (s t : String) : ascii (s++t) = ascii s++ascii t := by
  rw [ascii,String.toList_append,List.map_append]
  rfl

-- A token that ends at a slash or at the terminator.
theorem strtok_token {token : Bytes} (some : token ≠ []) (inside : ∀ b ∈ token,b ≠ slash ∧ b ≠ 0) {d : UInt8}
    (ends : d = slash ∨ d = 0) (rest : Bytes) :
    strtok (token++d::rest) = .ok (Option.some token,if d = 0 then d::rest else rest) := by
  have word : (token++d::rest).takeWhile (fun b => b ≠ slash && b ≠ 0) = token := by
    rw [List.takeWhile_append_of_pos]
    · rcases ends with rfl | rfl
      · simp
      · simp
    · intro b listed
      simp [inside b listed]
  cases token with
  | nil => exact absurd rfl some
  | cons c more =>
    have first := inside c List.mem_cons_self
    have start : ((c::more)++d::rest).dropWhile (· = slash) = (c::more)++d::rest := by
      rw [List.cons_append,List.dropWhile_cons,if_neg (by simp [first.1])]
    rw [strtok,start]
    dsimp only [List.cons_append]
    rw [if_neg first.2,← List.cons_append,word,List.drop_left]

theorem strtok_slash (rest : Bytes) : strtok (slash::rest) = strtok rest := by
  rw [strtok,List.dropWhile_cons,if_pos (by simp)]
  rfl

theorem splitKey_record (t : Table) : splitKey t.record.key = .ok ⟨none,some (ascii "psvt"),some (ascii t.name.text)⟩ := by
  have key : t.record.key = slash::(ascii "shared"++slash::(ascii "tables"++slash::(ascii "psvt"++
      slash::(ascii t.name.text++0::[])))) := by
    rw [Table.record,ascii_append]
    rfl
  have name : ascii t.name.text ≠ [] := by
    intro none
    apply t.named
    exact String.toList_eq_nil_iff.mp (List.map_eq_nil_iff.mp none)
  have single : ∀ b ∈ ascii t.name.text,b ≠ slash ∧ b ≠ 0 := by
    intro b listed
    refine ⟨?_,ascii_byte t.name.plain listed⟩
    obtain ⟨c,inside,rfl⟩ := List.mem_map.mp listed
    intro same
    have code := ascii_toNat (t.name.plain c inside).2
    rw [same] at code
    apply t.single
    rwa [← Char.ofNat_toNat c,← code] at inside
  have step : ∀ (token : Bytes) (some : token ≠ []) (inside : ∀ b ∈ token,b ≠ slash ∧ b ≠ 0) (rest : Bytes),
      strtok (token++slash::rest) = .ok (Option.some token,rest) :=
    fun token some inside rest => strtok_token some inside (.inl rfl) rest
  rw [key,splitKey,strtok_slash,step _ (by decide) (by decide +kernel)]
  dsimp only [Bind.bind,Except.bind]
  rw [if_neg (by decide),if_pos rfl,step _ (by decide) (by decide +kernel)]
  dsimp only
  rw [step _ (by decide) (by decide +kernel)]
  dsimp only
  rw [if_pos rfl,strtok_token name single (.inr rfl)]
  rfl

theorem temperature_back (r : Row) : Gddv.deciKelvinToCelsius r.psv.temp = r.temperature := by
  have warm := r.warm
  have temp : r.psv.temp = (r.temperature*10+2727 : Nat) := rfl
  have below : toInt (((r.temperature*10+2727 : Nat) : Int)-2732) = r.temperature*10-5 :=
    (toInt_fits (by unfold FitsInt; omega)).trans (by omega)
  have tenths : toInt ((r.temperature : Int)*10-5+5) = r.temperature*10 :=
    (toInt_fits (by unfold FitsInt; omega)).trans (by omega)
  rw [temp,Gddv.deciKelvinToCelsius,below,if_pos (by omega),tenths]
  exact Int.mul_tdiv_cancel _ (by decide)

theorem length_row (r : Row) :
    r.bytes.length = 132+r.source.content.length+r.target.content.length+r.limit.bytes.length := by
  simp only [Row.bytes,List.length_append,GddvEncoding.length_number,GddvEncoding.length_text,padding,List.length_cons,
    List.length_nil]
  omega

theorem yields_getType {v : Bytes} {i tag : Nat} (bound : tag < 256^4) (stands : Stands v i (encode 4 tag)) :
    Yields v getType i tag i id := by
  refine yields_after (⟨rfl,rfl⟩ : Yields v position i (i : Int) i id) ?_
  exact GddvEncoding.yields_field stands bound i

section Rows
open GddvEncoding
variable {v : Bytes} (small : v.length < 2147483648)
include small

theorem yields_string {i : Nat} {s : String} (plain : ∀ c ∈ s.toList,0 < c.toNat ∧ c.toNat < 128)
    (stands : Stands v i (GddvEncoding.text (ascii s++[0]))) :
    Yields v getText i s (i+12+(ascii s++[0]).length : Nat) id := by
  have alone : Stands v i (GddvEncoding.text (ascii s++[0])++[]) := by rwa [List.append_nil]
  have zero : 0 ∈ (ascii s++[0])++[] := List.mem_append_left _ (List.mem_append_right _ List.mem_cons_self)
  have read := yields_getText small alone zero
  rwa [List.append_nil,text_read plain] at read

theorem yields_numeric {i : Nat} {n : Nat} (stands : Stands v i (number n)) (bound : n < 2147483648) :
    Yields v getInt i n (i+12 : Nat) id := by
  have read := yields_getInt small stands (by omega)
  rwa [toInt_small (by omega) (by omega)] at read

theorem yields_psvLimit {i : Nat} {limit : Limit} (fits : limit.Fits) (stands : Stands v i limit.bytes) :
    Yields v psvLimit i limit.text (i+limit.bytes.length : Nat) id := by
  have word : ∀ s : String,(∀ c ∈ s.toList,0 < c.toNat ∧ c.toNat < 128) → Stands v i (GddvEncoding.text (ascii s++[0])) →
      Yields v psvLimit i s (i+(GddvEncoding.text (ascii s++[0])).length : Nat) id := by
    intro s plain stands
    rw [length_text,← Nat.add_assoc]
    refine yields_after (yields_getType (by decide) stands.left.left) ?_
    rw [if_pos rfl]
    exact yields_string small plain stands
  cases limit with
  | min => exact word "MIN" (plain_all (by decide)) stands
  | max => exact word "MAX" (plain_all (by decide)) stands
  | number n =>
    rw [Limit.bytes,length_number]
    refine yields_after (yields_getType (by decide) stands.left) ?_
    rw [if_neg (by decide)]
    refine yields_after (yields_getUint64 small stands fits) ?_
    exact yields_done v _ _

theorem yields_psvtRecord {i : Nat} {r : Row} (fits : r.limit.Fits) (stands : Stands v i r.bytes) (psvs : List Psv) :
    Yields v (psvtRecord psvs) i (psvs++[r.psv]) (i+r.bytes.length : Nat) id := by
  have target := after_text stands
  have priority := after_text target
  have samplePeriod := after_number priority
  have temp := after_number samplePeriod
  have domain := after_number temp
  have controlKnob := after_number domain
  have limit := after_number controlKnob
  have stepSize := limit.right
  have limitCoeff := after_number stepSize
  have unlimitCoeff := after_number limitCoeff
  have behind := (after_number unlimitCoeff).1
  have size := length_row r
  unfold psvtRecord
  refine yields_after (yields_string small r.source.plain stands.left) ?_
  refine yields_after (yields_string small r.target.plain target.left) ?_
  refine yields_after (yields_numeric small priority.left r.priority.2) ?_
  refine yields_after (yields_numeric small samplePeriod.left r.samplePeriod.2) ?_
  refine yields_after (yields_numeric small temp.left (by have warm := r.warm; omega)) ?_
  refine yields_after (yields_numeric small domain.left r.domain.2) ?_
  refine yields_after (yields_numeric small controlKnob.left r.controlKnob.2) ?_
  refine yields_after (yields_psvLimit small fits limit.left) ?_
  refine yields_after (yields_numeric small stepSize.left r.stepSize.2) ?_
  refine yields_after (yields_numeric small limitCoeff.left r.limitCoeff.2) ?_
  refine yields_after (yields_numeric small unlimitCoeff.left r.unlimitCoeff.2) ?_
  refine yields_after (yields_skip small (n := 12) behind) ?_
  have place : i+r.bytes.length = i+12+r.source.content.length+12+r.target.content.length+12+12+12+12+12+
      r.limit.bytes.length+12+12+12+12 := by
    omega
  rw [place]
  exact yields_done v _ _

end Rows

theorem keep_rows (rows : List Row) (psvs : List Psv) :
    rows.foldl (fun psvs r => psvs++[r.psv]) psvs = psvs++rows.map Row.psv :=
  foldl_keep (fun kept psvs => psvs++kept) (by simp) (by simp) Row.psv rows psvs

theorem row_content (r : Row) : r.bytes ≠ [] := by
  apply List.ne_nil_of_length_pos
  rw [length_row]
  omega

section Tables
open GddvEncoding
variable {t : Table} (fits : ∀ r ∈ t.rows,r.limit.Fits)
include fits

theorem run_table (small : t.record.val.length < 2147483648) {fuel : Nat} (enough : t.rows.length < fuel) :
    run t.record.val (parsePsvt fuel (some (ascii t.name.text)) (toInt t.record.val.length)) =
      ⟨fun g => {g with psvts := g.psvts++[t.psvt]},.ok ()⟩ := by
  have whole : Stands t.record.val 0 (number 2++t.rows.flatMap Row.bytes) := stands_whole _
  have rows := after_number whole
  have length : toInt t.record.val.length = (0+12+(t.rows.flatMap Row.bytes).length : Nat) := by
    rw [toInt_small (by omega) (by omega),Table.record,List.length_append,length_number,Nat.zero_add]
  have each : ∀ r ∈ t.rows,∀ psvs (i : Nat),Stands t.record.val i r.bytes →
      Yields t.record.val (psvtRecord psvs) i (psvs++[r.psv]) (i+r.bytes.length : Nat) id :=
    fun r listed psvs i stands => yields_psvtRecord small (fits r listed) stands psvs
  have loop := yields_whileBelow each (fun r _ => row_content r) enough [] rows length
  rw [keep_rows,List.nil_append] at loop
  have result : Yields t.record.val (parsePsvt fuel (some (ascii t.name.text)) (toInt t.record.val.length)) 0 ()
      (toInt t.record.val.length) (fun g => {g with psvts := g.psvts++[t.psvt]}) := by
    unfold parsePsvt
    refine yields_after (yields_numeric small (i := 0) whole.left (by decide)) ?_
    rw [if_neg (by decide)]
    refine yields_after ⟨loop.1,loop.2.trans ?_⟩ ?_
    · funext g
      exact List.foldl_fixed t.rows
    · have name := toText_ascii t.name.plain
      rw [Option.map_some,Option.getD_some,name]
      exact yields_write _ _ _
  exact yields_run result

-- A record of the script that stands in the file.
theorem parseGddvKey_table {v : Bytes} (small : v.length < 2147483648) {i : Nat} (stands : Stands v i t.record.bytes)
    {fuel : Nat} (enough : t.rows.length < fuel) :
    parseGddvKey fuel v i = ⟨fun g => {g with psvts := g.psvts++[t.psvt]},.ok t.record.bytes.length⟩ := by
  have size := t.record.length_bytes
  have inside := stands.1
  rw [parseGddvKey_stands small stands fuel (splitKey_record t)]
  have value : parseValue fuel ⟨none,some (ascii "psvt"),some (ascii t.name.text)⟩ (toInt t.record.val.length) =
      parsePsvt fuel (some (ascii t.name.text)) (toInt t.record.val.length) := by
    rw [parseValue]
    dsimp only
    rw [if_neg (by decide),if_pos rfl]
    rfl
  rw [value,run_table fits (by omega) enough]
  rfl

end Tables

theorem rows_lt (t : Table) : t.rows.length+12 < t.record.bytes.length := by
  have content : ∀ rows : List Row,rows.length ≤ (rows.flatMap Row.bytes).length := by
    intro rows
    induction rows with
    | nil => exact Nat.le_refl _
    | cons r rest ih =>
      have positive := List.length_pos_iff.mpr (row_content r)
      rw [List.flatMap_cons,List.length_append,List.length_cons]
      omega
  have rows := content t.rows
  have value : t.record.val.length = 12+(t.rows.flatMap Row.bytes).length := by
    rw [Table.record,List.length_append,GddvEncoding.length_number]
  have size := t.record.length_bytes
  omega

theorem keep_table (t : Table) (rest : List Table) :
    (fun g : Vault => {g with psvts := g.psvts++rest.map Table.psvt}) ∘
      (fun g : Vault => {g with psvts := g.psvts++[t.psvt]}) = fun g : Vault => {g with psvts := g.psvts++(t::rest).map Table.psvt} := by
  funext g
  simp

-- The loop of parse_gddv over the records of a version-1 file.
theorem parseItems_tables (lzma : Lzma) {v : Bytes} (small : v.length < 2147483648) {tables : List Table}
    (fits : ∀ t ∈ tables,∀ r ∈ t.rows,r.limit.Fits) {size : Int} {i : Nat}
    (stands : Stands v i (tables.flatMap (fun t => t.record.bytes)))
    (stop : size = (i+(tables.flatMap (fun t => t.record.bytes)).length : Nat)) {fuel : Nat}
    (enough : (tables.flatMap (fun t => t.record.bytes)).length < fuel) :
    parseItems lzma fuel v ⟨0,12,size,false⟩ i =
      ⟨fun g => {g with psvts := g.psvts++tables.map Table.psvt},.ok (0,some size)⟩ := by
  induction tables generalizing i fuel with
  | nil =>
    cases fuel with
    | zero => cases enough
    | succ fuel =>
      have ended : size = i := stop
      have past : ¬(i : Int)+(12 : Nat) < size := by omega
      rw [parseItems,if_neg past,ended]
      simp only [List.map_nil,List.append_nil]
      rfl
  | cons t rest ih =>
    cases fuel with
    | zero => cases enough
    | succ fuel =>
      rw [List.flatMap_cons,List.length_append] at enough stop
      rw [List.flatMap_cons] at stands
      have rows := rows_lt t
      have inside := stands.right.1
      have before : (i : Int)+(12 : Nat) < size := by omega
      have item : exec v (readItem ⟨0,12,size,false⟩ i) 0 = .ok (.key i,0) := by
        change exec v (.done (.key (0+(i : Int))) : Parse Item) 0 = .ok (.key i,0)
        rw [Int.zero_add]
        rfl
      have next : toInt ((i : Int)-0+t.record.bytes.length) = (i+t.record.bytes.length : Nat) := by
        rw [toInt_small (by omega) (by omega)]
        omega
      have enough : (rest.flatMap (fun t => t.record.bytes)).length < fuel := by omega
      have later := ih (fun u listed => fits u (List.mem_cons_of_mem _ listed)) stands.right (by omega) enough
      rw [parseItems,if_pos before,item]
      dsimp only
      rw [parseGddvKey_table (fits t List.mem_cons_self) small stands.left (by omega),andThen]
      dsimp only
      rw [next,later]
      dsimp only
      rw [keep_table]

theorem readHead_header {v : Bytes} {size : Int} (stands : Stands v 0 createHeader) (long : 148 ≤ size) :
    exec v (readHead 0 size) 0 = .ok (.plain 12 size false,0) := by
  have fields : createHeader = encode 2 8165++(encode 2 12++(encode 4 16777216++encode 4 0)) := by decide
  rw [fields] at stands
  have headersize := stands.right
  have version := headersize.right
  have flags := version.right
  have result : Yields v (readHead 0 size) 0 (.plain 12 size false) 0 id := by
    unfold readHead
    rw [if_neg (by rw [headerSize]; omega)]
    refine yields_after (GddvEncoding.yields_field (i := 0) stands.left (by decide) 0) ?_
    rw [if_neg (by decide)]
    refine yields_after (GddvEncoding.yields_field headersize.left (by decide) 0) ?_
    refine yields_after (GddvEncoding.yields_field version.left (by decide) 0) ?_
    dsimp only
    rw [if_neg (by decide)]
    refine yields_after (GddvEncoding.yields_field flags (by decide) 0) ?_
    rw [if_pos (by decide)]
    exact yields_done v _ _
  exact result.1

theorem length_record (t : Table) : 160 ≤ t.record.bytes.length := by
  obtain ⟨r,rest,same⟩ := List.exists_cons_of_ne_nil t.filled
  have size := t.record.length_bytes
  have row := length_row r
  have value : t.record.val.length = 12+(r.bytes.length+(rest.flatMap Row.bytes).length) := by
    rw [Table.record,List.length_append,GddvEncoding.length_number,same,List.flatMap_cons,List.length_append]
  omega

-- A file with a table is longer than struct header.
theorem length_file {tables : List Table} (some : tables ≠ []) :
    148 ≤ (tables.flatMap (fun t => t.record.bytes)).length := by
  obtain ⟨t,rest,same⟩ := List.exists_cons_of_ne_nil some
  have record := length_record t
  rw [same,List.flatMap_cons,List.length_append]
  omega

-- parse_gddv on a file of the script returns the tables it was made from.
theorem decode_undoes_encode (lzma : Lzma) {tables : List Table} (some : tables ≠ []) {file : Bytes}
    (written : createGddv tables = Option.some file) (small : file.length < 2147483648) :
    (∀ fuel,file.length ≤ fuel → parseGddv lzma fuel file 0 (toInt file.length) =
      ⟨fun g => {g with psvts := g.psvts++tables.map Table.psvt},.ok (0,Option.some file.length)⟩) ∧
    ∀ t ∈ tables,∀ r ∈ t.rows,Gddv.deciKelvinToCelsius r.psv.temp = r.temperature := by
  refine ⟨?_,fun t _ r _ => temperature_back r⟩
  obtain ⟨rfl,fits⟩ := createGddv_some written
  have whole := stands_whole (createHeader++tables.flatMap (fun t => t.record.bytes))
  have records := whole.right
  have content := length_file some
  have length : (createHeader++tables.flatMap (fun t => t.record.bytes)).length =
      12+(tables.flatMap (fun t => t.record.bytes)).length :=
    List.length_append
  intro fuel enough
  cases fuel with
  | zero => omega
  | succ fuel =>
    rw [toInt_small (by omega) (by omega),parseGddv,readHead_header whole.left (by omega)]
    dsimp only
    exact parseItems_tables lzma small fits records (by rw [length]; rfl) (by omega)

-- The first table of gddv_json_example.json.
def exampleRow (temperature : Nat) (warm : 1 ≤ temperature ∧ temperature ≤ 1000000) (limit : Limit) : Row where
  source := ⟨"\\_SB_.PC00.B0D4",plain_all (by decide)⟩
  target := ⟨"\\_SB_.PC00.TCPU",plain_all (by decide)⟩
  priority := ⟨10,by decide⟩
  samplePeriod := ⟨100,by decide⟩
  temperature := temperature
  warm := warm
  domain := ⟨9,by decide⟩
  controlKnob := ⟨65536,by decide⟩
  limit := limit
  stepSize := ⟨500,by decide⟩
  limitCoeff := ⟨500,by decide⟩
  unlimitCoeff := ⟨500,by decide⟩

def exampleTable : Table where
  name := ⟨"IETM.D0",plain_all (by decide)⟩
  named := by decide
  single := by decide
  rows := [exampleRow 80 (by decide) (.number 10000),exampleRow 90 (by decide) .min]
  filled := by simp

def exampleFile : Bytes := createHeader++exampleTable.record.bytes

theorem decode_undoes_encode_example : createGddv [exampleTable] = some exampleFile ∧
    (∀ fuel,exampleFile.length ≤ fuel → parseGddv idle fuel exampleFile 0 (toInt exampleFile.length) =
      ⟨fun g => {g with psvts := g.psvts++[exampleTable.psvt]},.ok (0,some exampleFile.length)⟩) ∧
    ∀ t ∈ [exampleTable],∀ r ∈ t.rows,Gddv.deciKelvinToCelsius r.psv.temp = r.temperature := by
  have written : createGddv [exampleTable] = some exampleFile := by decide +kernel
  exact ⟨written,decode_undoes_encode idle (by simp) written (by decide +kernel)⟩

-- A table whose name has any number of letters.
def longTable (n : Nat) (some : n ≠ 0) : Table where
  name := {
    text := String.ofList (List.replicate n 'a')
    plain := by
      intro c listed
      rw [String.toList_ofList] at listed
      rw [List.eq_of_mem_replicate listed]
      decide}
  named := by
    intro empty
    have none := congrArg String.toList empty
    rw [String.toList_ofList] at none
    exact some ((List.replicate_eq_nil_iff _).mp none)
  single := by
    intro listed
    rw [String.toList_ofList] at listed
    exact absurd (List.eq_of_mem_replicate listed) (by decide)
  rows := [exampleRow 80 (by decide) .max]
  filled := by simp

theorem longTable_key {n : Nat} (some : n ≠ 0) :
    ("/shared/tables/psvt/"++(longTable n some).name.text).length = 20+n := by
  have name : (longTable n some).name.text.length = n := by
    change (String.ofList (List.replicate n 'a')).length = n
    rw [String.length_ofList,List.length_replicate]
  rw [String.length_append,name]
  rfl

theorem longTable_value {n : Nat} (some : n ≠ 0) : (longTable n some).record.val.length = 192 := by
  change (GddvEncoding.number 2++[exampleRow 80 (by decide) .max].flatMap Row.bytes).length = 192
  decide +kernel

theorem longTable_length {n : Nat} (some : n ≠ 0) :
    (createHeader++(longTable n some).record.bytes).length = 241+n := by
  have key : (longTable n some).record.key.length = 21+n := by
    rw [Table.record,List.length_append,length_ascii,longTable_key]
    simp only [List.length_cons,List.length_nil]
    omega
  have header : createHeader.length = 12 := rfl
  rw [List.length_append,GddvEncoding.KeyRecord.length_bytes,key,longTable_value,header]
  omega

theorem createKey_fits {key : String} {val : Bytes} (name : key.length+1 < 256^4) (content : val.length < 256^4) :
    createKey key val = some (GddvEncoding.KeyRecord.bytes ⟨0,ascii key++[0],0,val⟩) := by
  have length : (ascii key++[0]).length = key.length+1 := by
    rw [List.length_append,length_ascii]
    rfl
  rw [createKey,toBytes,toBytes,if_pos name,if_pos content,GddvEncoding.KeyRecord.bytes,length]
  rfl

theorem longTable_written {n : Nat} (some : n ≠ 0) (fits : n < 4294967000) :
    createGddv [longTable n some] = Option.some (createHeader++(longTable n some).record.bytes) := by
  have version : createUintu64 2 = Option.some (GddvEncoding.number 2) := by decide +kernel
  have rows : createAll createRow (longTable n some).rows =
      Option.some ((longTable n some).rows.flatMap Row.bytes) := by
    change createAll createRow [exampleRow 80 (by decide) .max] =
      Option.some ([exampleRow 80 (by decide) .max].flatMap Row.bytes)
    decide +kernel
  have key := longTable_key some
  have value : (longTable n some).record.val.length < 256^4 := by
    rw [longTable_value]
    decide
  have table : createTable (longTable n some) = Option.some (longTable n some).record.bytes := by
    rw [createTable,version,rows]
    exact createKey_fits (by omega) value
  rw [createGddv,createAll,table]
  change Option.some (createHeader++((longTable n some).record.bytes++[])) = _
  rw [List.append_nil]

-- A length of 2^31 is negative as the int that parse_gddv takes.
theorem long_file_rejected : ∃ tables file,tables ≠ [] ∧ createGddv tables = some file ∧
    ∀ lzma fuel,parseGddv lzma (fuel+1) file 0 (toInt file.length) = ⟨id,.ok (thdError,none)⟩ := by
  have some : 2147483648 ≠ 0 := by decide
  refine ⟨[longTable 2147483648 some],_,List.cons_ne_nil _ _,longTable_written some (by decide),?_⟩
  intro lzma fuel
  have negative : toInt (createHeader++(longTable 2147483648 some).record.bytes).length < headerSize := by
    rw [longTable_length]
    decide
  rw [parseGddv,readHead,if_pos negative]
  rfl

end ChuwiMinibook.PsvtRoundTrip
