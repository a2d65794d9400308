import ChuwiMinibook.VaultTree

namespace ChuwiMinibook.VaultRuns
open ByteScan Scan GddvTables GddvParser GddvReads GddvLoops GddvEncoding VaultTree

theorem result_andThen {α β : Type} {first : Outcome Vault α} {a : α} (ended : first.result = .ok a)
    (next : α → Outcome Vault β) : (andThen first next).result = (next a).result := by
  rw [andThen,ended]

theorem enough_and {p q : Nat → Prop} (first : Enough p) (second : Enough q) : Enough (fun fuel => p fuel ∧ q fuel) := by
  obtain ⟨m,first⟩ := first
  obtain ⟨n,second⟩ := second
  exact ⟨m+n,fun fuel enough => ⟨first fuel (by omega),second fuel (by omega)⟩⟩

theorem enough_step {p q : Nat → Prop} (given : Enough p) (each : ∀ fuel,p fuel → q (fuel+1)) : Enough q := by
  obtain ⟨n,given⟩ := given
  refine ⟨n+1,fun fuel enough => ?_⟩
  cases fuel with
  | zero => cases enough
  | succ fuel => exact each fuel (given fuel (by omega))

theorem enough_mono {p q : Nat → Prop} (given : Enough p) (each : ∀ fuel,p fuel → q fuel) : Enough q := by
  obtain ⟨n,given⟩ := given
  exact ⟨n,fun fuel enough => each fuel (given fuel enough)⟩

-- A nested object takes one more step than the loop inside it.
theorem enough_nested {p q r : Nat → Prop} (inner : Enough p) (later : Enough q)
    (each : ∀ fuel,p fuel → q (fuel+1) → r (fuel+2)) : Enough r := by
  obtain ⟨m,inner⟩ := inner
  obtain ⟨n,later⟩ := later
  refine ⟨m+n+2,fun fuel enough => ?_⟩
  obtain ⟨fuel,rfl⟩ := Nat.exists_eq_add_of_le' (Nat.le_trans (Nat.le_add_left 2 (m+n)) enough)
  exact each fuel (inner fuel (by omega)) (later (fuel+1) (by omega))

section Steps
variable (lzma : Lzma) {v : Bytes} {o fuel : Nat}

-- The loop ends.
theorem step_end (v : Bytes) (a : Int) {hs : Nat} {size : Int} (late : ¬(o : Int)+hs < size) : Enough (fun fuel =>
    (parseItems lzma fuel v ⟨a,hs,size,true⟩ o).result = .ok (0,some (o : Int)) ∧
    itemVisits lzma fuel v ⟨a,hs,size,true⟩ o = []) := by
  refine enough_step (p := fun _ => True) ⟨0,fun _ _ => trivial⟩ ?_
  intro fuel _
  rw [parseItems,itemVisits,if_neg late,if_neg late]
  exact ⟨rfl,rfl⟩

variable {a hs : Nat} {size : Int}

theorem readItem_object {h : Header} {payload : Nat} (stands : Stands v (a+o) (h.bytes payload)) :
    exec v (readItem ⟨a,hs,size,true⟩ o) 0 = .ok (.object,0) := by
  have result : Yields v (readItem ⟨a,hs,size,true⟩ o) 0 .object 0 id := by
    unfold readItem
    rw [if_pos rfl]
    refine yields_after (yields_field stands.left (by decide) 0) ?_
    rw [if_neg (by decide),if_pos rfl]
    exact yields_done v _ _
  exact result.1

variable (small : v.length < 2147483648) (early : (o : Int)+hs < size)
include small early

-- The loop comes to a key record that it can read.
theorem step_key {k : KeyRecord} {rest : Bytes} (stands : Stands v (a+o) (encode 2 keysSignature++(k.bytes++rest)))
    {path : KeyPath} (split : splitKey k.key = .ok path)
    (read : (run k.val (parseValue fuel path (toInt k.val.length))).result = .ok ()) :
    (parseItems lzma (fuel+1) v ⟨a,hs,size,true⟩ o).result =
      (parseItems lzma fuel v ⟨a,hs,size,true⟩ (o+(2+k.bytes.length) : Nat)).result ∧
    itemVisits lzma (fuel+1) v ⟨a,hs,size,true⟩ o =
      .key ((a+o : Nat)+2)::itemVisits lzma fuel v ⟨a,hs,size,true⟩ (o+(2+k.bytes.length) : Nat) := by
  have record := stands.right.left
  rw [length_encode] at record
  have inside := record.1
  have item : exec v (readItem ⟨a,hs,size,true⟩ o) 0 = .ok (.key ((a+o : Nat)+2),0) := by
    have result : Yields v (readItem ⟨a,hs,size,true⟩ o) 0 (.key ((a+o : Nat)+2)) 0 id := by
      unfold readItem
      rw [if_pos rfl]
      refine yields_after (yields_field stands.left (by decide) 0) ?_
      rw [if_pos rfl]
      exact yields_done v _ _
    exact result.1
  have key : (parseGddvKey fuel v ((a+o : Nat)+2)).result = .ok (k.bytes.length : Int) := by
    have parsed := parseGddvKey_stands small record fuel split
    rw [read] at parsed
    exact congrArg Outcome.result parsed
  have next : toInt (((a+o : Nat) : Int)+2-a+k.bytes.length) = (o+(2+k.bytes.length) : Nat) := by
    rw [toInt_small (by omega) (by omega)]
    omega
  rw [parseItems,itemVisits,if_pos early,if_pos early,item]
  dsimp only
  rw [result_andThen key,key]
  dsimp only
  rw [next]
  exact ⟨rfl,rfl⟩

-- The loop comes to a nested object that returns.
theorem step_object {h : Header} {payload : Nat} (stands : Stands v (a+o) (h.bytes payload)) {endOffset : Nat}
    (room : o+endOffset ≤ v.length)
    (ended : (parseGddv lzma fuel v (a+o : Nat) (size-o)).result = .ok (0,some (endOffset : Int))) :
    (parseItems lzma (fuel+1) v ⟨a,hs,size,true⟩ o).result =
      (parseItems lzma fuel v ⟨a,hs,size,true⟩ (o+endOffset : Nat)).result ∧
    itemVisits lzma (fuel+1) v ⟨a,hs,size,true⟩ o = visits lzma fuel v (a+o : Nat) (size-o)++
      .ended (a+o : Nat) endOffset::itemVisits lzma fuel v ⟨a,hs,size,true⟩ (o+endOffset : Nat) := by
  have next : toInt ((o : Int)+endOffset) = (o+endOffset : Nat) := by
    rw [toInt_small (by omega) (by omega)]
    omega
  have place : (a : Int)+o = (a+o : Nat) := rfl
  rw [parseItems,itemVisits,if_pos early,if_pos early,readItem_object stands]
  dsimp only
  rw [place,result_andThen ended,ended]
  dsimp only
  rw [if_neg (by decide),if_neg (by decide),Option.getD_some,next]
  exact ⟨rfl,rfl⟩

omit small in
-- What a nested object does is seen, whatever it returns.
theorem visits_inside {h : Header} {payload : Nat} (stands : Stands v (a+o) (h.bytes payload)) {call : Visit}
    (made : call ∈ visits lzma fuel v (a+o : Nat) (size-o)) :
    call ∈ itemVisits lzma (fuel+1) v ⟨a,hs,size,true⟩ o := by
  have place : (a : Int)+o = (a+o : Nat) := rfl
  rw [itemVisits,if_pos early,readItem_object stands]
  dsimp only
  rw [place]
  exact List.mem_append_left _ made

end Steps

-- An object's own loop starts behind its header.
theorem enter (lzma : Lzma) {v : Bytes} {x : Nat} {h : Header} {payload : Nat} (stands : Stands v x (h.bytes payload))
    (bound : payload < 4294967296) {size : Int} (long : 148 ≤ size) (fuel : Nat) :
    parseGddv lzma (fuel+1) v x size = parseItems lzma fuel v ⟨x,h.size,toInt payload,true⟩ h.size ∧
    visits lzma (fuel+1) v x size = itemVisits lzma fuel v ⟨x,h.size,toInt payload,true⟩ h.size := by
  rw [parseGddv,visits,readHead_object stands bound long]
  exact ⟨rfl,rfl⟩

theorem handed_key (address : Int) (calls : List Visit) : handed (.key address::calls) = address::handed calls := rfl

theorem handed_object (inner : List Visit) (address endOffset : Int) (calls : List Visit) :
    handed (inner++.ended address endOffset::calls) = handed inner++handed calls := by
  rw [handed,List.filterMap_append]
  rfl

theorem right_nil (v : Bytes) : Right v [] := by
  intro address endOffset listed
  cases listed

theorem right_key {v : Bytes} {address : Int} {calls : List Visit} : Right v (.key address::calls) ↔ Right v calls := by
  constructor
  · intro right x found listed
    exact right x found (List.mem_cons_of_mem _ listed)
  · intro right x found listed
    rcases List.mem_cons.mp listed with same | later
    · cases same
    · exact right x found later

theorem right_object {v : Bytes} {address endOffset : Int} {inner calls : List Visit} (first : Right v inner)
    (here : endOffset = declared v address) : Right v (inner++.ended address endOffset::calls) ↔ Right v calls := by
  constructor
  · intro right x found listed
    exact right x found (List.mem_append_right _ (List.mem_cons_of_mem _ listed))
  · intro later x found listed
    rcases List.mem_append.mp listed with inside | listed
    · exact first x found inside
    · rcases List.mem_cons.mp listed with same | behind
      · cases same
        exact here
      · exact later x found behind

theorem enter_small (lzma : Lzma) {v : Bytes} (small : v.length < 2147483648) {x : Nat} {h : Header} {inner rest : Items}
    (stands : Stands v x (Items.object h inner rest).bytes) (content : Stands v (x+h.size) inner.bytes) {size : Int}
    (long : 148 ≤ size) (fuel : Nat) :
    parseGddv lzma (fuel+1) v x size = parseItems lzma fuel v ⟨x,h.size,inner.bytes.length,true⟩ h.size ∧
    visits lzma (fuel+1) v x size = itemVisits lzma fuel v ⟨x,h.size,inner.bytes.length,true⟩ h.size := by
  have inside := content.1
  have entered := enter lzma stands.left (by omega) long fuel
  rwa [toInt_small (by omega) (by omega)] at entered

-- A loop over items visits their keys, reports nothing wrong, and ends where its
-- object does when all of them leave room.
def Finishes (lzma : Lzma) (v : Bytes) (items : Items) (a hs payload o fuel : Nat) : Prop :=
  ∃ endOffset : Nat,(parseItems lzma fuel v ⟨a,hs,payload,true⟩ o).result = .ok (0,some (endOffset : Int)) ∧
    handed (itemVisits lzma fuel v ⟨a,hs,payload,true⟩ o) = items.keys (a+o : Nat) ∧
    Right v (itemVisits lzma fuel v ⟨a,hs,payload,true⟩ o) ∧ (items.clear hs = true → endOffset = hs+payload)

-- A loop that stops before the end of its object, or that was told a wrong end.
def FallsShort (lzma : Lzma) (v : Bytes) (items : Items) (a hs payload o fuel : Nat) : Prop :=
  (∃ endOffset : Nat,endOffset < hs+payload ∧
    (parseItems lzma fuel v ⟨a,hs,payload,true⟩ o).result = .ok (0,some (endOffset : Int)) ∧
    (items.clearKeys hs = false → handed (itemVisits lzma fuel v ⟨a,hs,payload,true⟩ o) ≠ items.keys (a+o : Nat))) ∨
  ¬Right v (itemVisits lzma fuel v ⟨a,hs,payload,true⟩ o)

-- The loop stops in front of items that come too late for it.
theorem stops_short (lzma : Lzma) (v : Bytes) {items : Items} {a hs payload o : Nat} (span : o+items.bytes.length = hs+payload)
    (some : 0 < items.bytes.length) (late : ¬(o : Int)+hs < payload)
    (unread : items.clearKeys hs = false → items.keyless = false) :
    Enough (FallsShort lzma v items a hs payload o) := by
  refine enough_mono (step_end lzma v a late) ?_
  intro fuel ended
  obtain ⟨result,calls⟩ := ended
  rw [FallsShort,calls]
  exact .inl ⟨o,by omega,result,fun unclear => Items.keys_some (unread unclear) _⟩

section Runs
variable (lzma : Lzma) {v : Bytes} (small : v.length < 2147483648)
include small

-- The loop comes to a nested object whose own loop returns.
theorem step_nested {h : Header} {inner rest : Items} {a hs payload o fuel : Nat} (head : 148 ≤ hs)
    (stands : Stands v (a+o) (Items.object h inner rest).bytes) (early : (o : Int)+hs < payload) {endOffset : Nat}
    (within : endOffset ≤ h.size+inner.bytes.length)
    (ended : (parseItems lzma fuel v ⟨(a+o : Nat),h.size,inner.bytes.length,true⟩ h.size).result =
      .ok (0,some (endOffset : Int))) :
    (parseItems lzma (fuel+2) v ⟨a,hs,payload,true⟩ o).result =
      (parseItems lzma (fuel+1) v ⟨a,hs,payload,true⟩ (o+endOffset : Nat)).result ∧
    itemVisits lzma (fuel+2) v ⟨a,hs,payload,true⟩ o =
      itemVisits lzma fuel v ⟨(a+o : Nat),h.size,inner.bytes.length,true⟩ h.size++
        .ended (a+o : Nat) endOffset::itemVisits lzma (fuel+1) v ⟨a,hs,payload,true⟩ (o+endOffset : Nat) := by
  have content := (after_object stands rfl).1
  have inside := content.1
  have long : 148 ≤ (payload : Int)-o := by omega
  obtain ⟨parsed,called⟩ := enter_small lzma small stands content long fuel
  rw [← called]
  exact step_object lzma small early stands.left (by omega) ((congrArg Outcome.result parsed).trans ended)

-- A nested object that is read to its end.
theorem nested_read {h : Header} {inner rest : Items} {a hs payload o fuel : Nat} (head : 148 ≤ hs)
    (stands : Stands v (a+o) (Items.object h inner rest).bytes) (early : (o : Int)+hs < payload)
    (inside : inner.clear h.size = true) (run : Finishes lzma v inner (a+o) h.size inner.bytes.length h.size fuel) :
    (parseItems lzma (fuel+2) v ⟨a,hs,payload,true⟩ o).result =
      (parseItems lzma (fuel+1) v ⟨a,hs,payload,true⟩ (o+(h.size+inner.bytes.length) : Nat)).result ∧
    handed (itemVisits lzma (fuel+2) v ⟨a,hs,payload,true⟩ o) = inner.keys (a+o+h.size : Nat)++
      handed (itemVisits lzma (fuel+1) v ⟨a,hs,payload,true⟩ (o+(h.size+inner.bytes.length) : Nat)) ∧
    (Right v (itemVisits lzma (fuel+2) v ⟨a,hs,payload,true⟩ o) ↔
      Right v (itemVisits lzma (fuel+1) v ⟨a,hs,payload,true⟩ (o+(h.size+inner.bytes.length) : Nat))) := by
  obtain ⟨endOffset,result,keys,right,ends⟩ := run
  have whole := ends inside
  have last := (after_object stands rfl).1.1
  obtain ⟨same,calls⟩ := step_nested lzma small head stands early (Nat.le_of_eq whole) result
  rw [same,calls,whole,handed_object,keys]
  exact ⟨rfl,rfl,right_object right (header_declares stands.left (by omega)).symm⟩

-- A nested object that is not is seen from outside.
theorem nested_wrong {h : Header} {inner rest : Items} {a hs payload o fuel : Nat} (head : 148 ≤ hs)
    (stands : Stands v (a+o) (Items.object h inner rest).bytes) (early : (o : Int)+hs < payload)
    (run : FallsShort lzma v inner (a+o) h.size inner.bytes.length h.size fuel) :
    ¬Right v (itemVisits lzma (fuel+2) v ⟨a,hs,payload,true⟩ o) := by
  have content := (after_object stands rfl).1
  have last := content.1
  intro right
  rcases run with ⟨endOffset,short,result,-⟩ | wrong
  · obtain ⟨-,calls⟩ := step_nested lzma small head stands early (Nat.le_of_lt short) result
    rw [calls] at right
    have same := right _ _ (List.mem_append_right _ List.mem_cons_self)
    have declares := header_declares (stands.left : Stands v (a+o) (h.bytes inner.bytes.length)) (by omega)
    rw [declares] at same
    omega
  · have long : 148 ≤ (payload : Int)-o := by omega
    have called := (enter_small lzma small stands content long fuel).2
    rw [← called] at wrong
    exact wrong (fun x found listed => right x found (visits_inside lzma early stands.left listed))

theorem items_finish {items : Items} (valid : items.Valid) {a hs payload o : Nat} (head : 148 ≤ hs)
    (stands : Stands v (a+o) items.bytes) (span : o+items.bytes.length = hs+payload) (clear : items.clearKeys hs = true) :
    Enough (Finishes lzma v items a hs payload o) := by
  induction items generalizing a hs payload o with
  | nil =>
    have late : ¬(o : Int)+hs < payload := by
      rw [Items.bytes,List.length_nil] at span
      omega
    refine enough_mono (step_end lzma v a late) ?_
    intro fuel ended
    obtain ⟨result,calls⟩ := ended
    rw [Finishes,calls]
    exact ⟨o,result,rfl,right_nil v,fun _ => span⟩
  | key k rest ih =>
    obtain ⟨⟨path,split,read⟩,valid⟩ := valid
    obtain ⟨room,clear⟩ := Bool.and_eq_true_iff.mp clear
    have room := of_decide_eq_true room
    have early : (o : Int)+hs < payload := by omega
    obtain ⟨behind,span⟩ := after_key stands span
    refine enough_step (enough_and read (ih valid head behind span clear)) ?_
    intro fuel given
    obtain ⟨read,endOffset,result,keys,right,ends⟩ := given
    obtain ⟨same,calls⟩ := step_key lzma small early stands split read
    rw [Finishes,same,calls]
    refine ⟨endOffset,result,?_,right_key.mpr right,fun clear => ends (Bool.and_eq_true_iff.mp clear).2⟩
    rw [handed_key,keys,keys_key]
  | object h inner rest first second =>
    obtain ⟨nestedValid,valid⟩ := valid
    by_cases room : 2*hs < (Items.object h inner rest).bytes.length
    · rw [Items.clearKeys,if_pos room] at clear
      obtain ⟨inside,clear⟩ := Bool.and_eq_true_iff.mp clear
      have early : (o : Int)+hs < payload := by omega
      obtain ⟨content,behind,span⟩ := after_object stands span
      have nested := first nestedValid (header_bounds h).1 content rfl (Items.clear_clearKeys inside)
      refine enough_nested nested (second valid head behind span clear) ?_
      intro fuel run later
      obtain ⟨endOffset,result,keys,right,ends⟩ := later
      obtain ⟨same,called,rights⟩ := nested_read lzma small head stands early inside run
      refine ⟨endOffset,same.trans result,?_,rights.mpr right,?_⟩
      · rw [called,keys,keys_object]
      · intro clear
        exact ends (Bool.and_eq_true_iff.mp (Bool.and_eq_true_iff.mp clear).2).2
    · have late : ¬(o : Int)+hs < payload := by omega
      rw [Items.clearKeys,if_neg room] at clear
      refine enough_mono (step_end lzma v a late) ?_
      intro fuel ended
      obtain ⟨result,calls⟩ := ended
      rw [Finishes,calls,Items.keys_keyless clear]
      refine ⟨o,result,rfl,right_nil v,fun clear => ?_⟩
      exact absurd (of_decide_eq_true (Bool.and_eq_true_iff.mp clear).1) room

theorem items_short {items : Items} (valid : items.Valid) {a hs payload o : Nat} (head : 148 ≤ hs)
    (stands : Stands v (a+o) items.bytes) (span : o+items.bytes.length = hs+payload) (close : items.clear hs = false) :
    Enough (FallsShort lzma v items a hs payload o) := by
  induction items generalizing a hs payload o with
  | nil => cases close
  | key k rest ih =>
    obtain ⟨⟨path,split,read⟩,valid⟩ := valid
    obtain ⟨behind,later⟩ := after_key stands span
    by_cases room : 2*hs < (Items.key k rest).bytes.length
    · have early : (o : Int)+hs < payload := by omega
      rw [Items.clear,decide_eq_true room,Bool.true_and] at close
      refine enough_step (enough_and read (ih valid head behind later close)) ?_
      intro fuel given
      obtain ⟨read,run⟩ := given
      obtain ⟨same,calls⟩ := step_key lzma small early stands split read
      rw [FallsShort,same,calls,right_key]
      rcases run with ⟨endOffset,short,result,missing⟩ | wrong
      · refine .inl ⟨endOffset,short,result,?_⟩
        intro unclear listed
        rw [Items.clearKeys,decide_eq_true room,Bool.true_and] at unclear
        rw [handed_key,keys_key] at listed
        exact missing unclear (List.cons.inj listed).2
      · exact .inr wrong
    · have some : 0 < (Items.key k rest).bytes.length := by
        rw [Items.bytes,List.length_append,length_encode]
        omega
      exact stops_short lzma v span some (by omega) (fun _ => rfl)
  | object h inner rest first second =>
    obtain ⟨nestedValid,valid⟩ := valid
    obtain ⟨content,behind,later⟩ := after_object stands span
    by_cases room : 2*hs < (Items.object h inner rest).bytes.length
    · have early : (o : Int)+hs < payload := by omega
      cases inside : inner.clear h.size with
      | false =>
        have nested := first nestedValid (header_bounds h).1 content rfl inside
        refine enough_nested nested nested ?_
        intro fuel run _
        exact .inr (nested_wrong lzma small head stands early run)
      | true =>
        have nested := items_finish lzma small nestedValid (header_bounds h).1 content rfl
          (Items.clear_clearKeys inside)
        rw [Items.clear,decide_eq_true room,Bool.true_and,inside,Bool.true_and] at close
        refine enough_nested nested (second valid head behind later close) ?_
        intro fuel finished run
        obtain ⟨same,called,rights⟩ := nested_read lzma small head stands early inside finished
        rw [FallsShort,same,called,rights]
        rcases run with ⟨endOffset,short,result,missing⟩ | wrong
        · refine .inl ⟨endOffset,short,result,?_⟩
          intro unclear listed
          rw [Items.clearKeys,if_pos room,inside,Bool.true_and] at unclear
          rw [keys_object] at listed
          exact missing unclear (List.append_cancel_left listed)
        · exact .inr wrong
    · have some : 0 < (Items.object h inner rest).bytes.length := by
        have bounds := header_bounds h
        rw [Items.bytes,List.length_append,header_length]
        omega
      refine stops_short lzma v span some (by omega) ?_
      intro unclear
      rwa [Items.clearKeys,if_neg room] at unclear

end Runs

theorem toInt_large {n : Nat} (low : 2147483648 ≤ n) (high : n < 6442450944) : toInt n = (n : Int)-4294967296 := by
  rw [toInt,Int.bmod_def]
  split <;> omega

section Vaults
variable (lzma : Lzma) (v : DataVault)

-- A vault whose size fits in an int is read as its loop says.
theorem enter_vault (small : v.bytes.length < 2147483648) (fuel : Nat) :
    parseGddv lzma (fuel+1) v.bytes 0 (toInt v.bytes.length) =
      parseItems lzma fuel v.bytes ⟨(0 : Nat),v.header.size,v.items.bytes.length,true⟩ v.header.size ∧
    visits lzma (fuel+1) v.bytes 0 (toInt v.bytes.length) =
      itemVisits lzma fuel v.bytes ⟨(0 : Nat),v.header.size,v.items.bytes.length,true⟩ v.header.size := by
  have length := v.length_bytes
  have bounds := header_bounds v.header
  have long : 148 ≤ (v.bytes.length : Int) := by omega
  have entered := enter lzma v.stands_header v.fits long fuel
  rw [toInt_small (x := v.items.bytes.length) (by omega) (by omega)] at entered
  rw [toInt_small (by omega) (by omega)]
  exact entered

theorem complete_small (small : v.bytes.length < 2147483648) (clear : v.items.clearKeys v.header.size = true) :
    Complete lzma v := by
  have loop := items_finish lzma small v.valid (header_bounds v.header).1 v.stands_items rfl clear
  refine enough_step loop ?_
  intro fuel given
  obtain ⟨endOffset,result,keys,right,-⟩ := given
  obtain ⟨parsed,called⟩ := enter_vault lzma v small fuel
  rw [parsed,called]
  refine ⟨⟨_,result⟩,?_,right⟩
  rw [keys,Nat.zero_add]
  rfl

theorem incomplete_small (small : v.bytes.length < 2147483648) (unclear : v.items.clearKeys v.header.size = false) :
    ¬Complete lzma v := by
  have close : v.items.clear v.header.size = false := by
    cases clear : v.items.clear v.header.size with
    | false => rfl
    | true => exact absurd (Items.clear_clearKeys clear) (by rw [unclear]; decide)
  have loop := items_short lzma small v.valid (header_bounds v.header).1 v.stands_items rfl close
  intro given
  obtain ⟨least,complete⟩ := given
  obtain ⟨other,run⟩ := loop
  obtain ⟨-,keys,right⟩ := complete (least+other+1) (by omega)
  rw [(enter_vault lzma v small (least+other)).2] at keys right
  rcases run (least+other) (by omega) with ⟨endOffset,-,-,missing⟩ | wrong
  · apply missing unclear
    rw [keys,Nat.zero_add]
    rfl
  · exact wrong right

-- A negative size, or one below that of struct header.
theorem incomplete_large (low : 2147483648 ≤ v.bytes.length) (high : v.bytes.length < 4294967444) :
    ¬Complete lzma v := by
  intro given
  obtain ⟨least,complete⟩ := given
  obtain ⟨⟨endOffset,result⟩,-⟩ := complete (least+1) (by omega)
  have refused : toInt v.bytes.length < headerSize := by
    rw [toInt_large low (by omega),headerSize]
    omega
  rw [parseGddv,readHead,if_pos refused] at result
  cases result

-- A payload size that is negative as an int ends the loop before it starts.
theorem huge_returns (huge : 4294967444 ≤ v.bytes.length) : Enough (fun fuel =>
    (parseGddv lzma fuel v.bytes 0 (toInt v.bytes.length)).result = .ok (0,some (v.header.size : Int)) ∧
    visits lzma fuel v.bytes 0 (toInt v.bytes.length) = []) := by
  have length := v.length_bytes
  have fits := v.fits
  have bounds := header_bounds v.header
  have long : 148 ≤ toInt v.bytes.length := by
    rw [toInt_large (by omega) (by omega)]
    omega
  have late : ¬(v.header.size : Int)+v.header.size < toInt v.items.bytes.length := by
    rw [toInt_large (by omega) (by omega)]
    omega
  refine enough_step (step_end lzma v.bytes (0 : Nat) late) ?_
  intro fuel given
  obtain ⟨result,calls⟩ := given
  obtain ⟨parsed,called⟩ := enter lzma v.stands_header v.fits long fuel
  exact ⟨(congrArg Outcome.result parsed).trans result,called.trans calls⟩

theorem complete_huge_iff (huge : 4294967444 ≤ v.bytes.length) : Complete lzma v ↔ v.items.keyless = true := by
  obtain ⟨least,returns⟩ := huge_returns lzma v huge
  constructor
  · intro given
    obtain ⟨other,complete⟩ := given
    obtain ⟨-,keys,-⟩ := complete (least+other) (by omega)
    rw [(returns (least+other) (by omega)).2] at keys
    cases some : v.items.keyless with
    | true => rfl
    | false => exact absurd keys (Items.keys_some some _)
  · intro none
    refine ⟨least,fun fuel enough => ?_⟩
    obtain ⟨result,calls⟩ := returns fuel enough
    rw [calls]
    exact ⟨⟨_,result⟩,(Items.keys_keyless none _).symm,right_nil _⟩

-- The parse is complete exactly when the items leave room.
theorem complete_parse_iff : Complete lzma v ↔ v.Clear := by
  unfold DataVault.Clear
  rcases Nat.lt_or_ge v.bytes.length 2147483648 with small | large
  · have notHuge : ¬4294967444 ≤ v.bytes.length := by omega
    cases clear : v.items.clearKeys v.header.size with
    | true => exact iff_of_true (complete_small lzma v small clear) (.inl ⟨small,rfl⟩)
    | false =>
      refine iff_of_false (incomplete_small lzma v small clear) ?_
      intro given
      rcases given with ⟨-,same⟩ | ⟨huge,-⟩
      · cases same
      · exact notHuge huge
  · rcases Nat.lt_or_ge v.bytes.length 4294967444 with refused | huge
    · refine iff_of_false (incomplete_large lzma v large refused) ?_
      intro given
      rcases given with ⟨small,-⟩ | ⟨huge,-⟩
      · omega
      · omega
    · rw [complete_huge_iff lzma v huge]
      constructor
      · exact fun none => .inr ⟨huge,none⟩
      · intro given
        rcases given with ⟨small,-⟩ | ⟨-,none⟩
        · omega
        · exact none

end Vaults

def plainHeader : Header where
  version := 33554432
  second := by decide
  flags := 0
  uncompressed := by decide
  fields := List.replicate 128 0
  fieldsLength := List.length_replicate
  rest := [0,0,0,0]
  whole := by decide
  short := by decide

-- A vault with one short key.
def shortVault : DataVault where
  header := plainHeader
  items := .key ⟨0,ascii "/shared/name"++[0],0,[]⟩ .nil
  valid := ⟨⟨⟨none,none,none⟩,by decide,0,fun _ _ => rfl⟩,trivial⟩
  fits := by decide +kernel

theorem short_vault_unread : ¬Complete idle shortVault ∧ shortVault.keys = [150] ∧ ∀ fuel,2 ≤ fuel →
    (parseGddv idle fuel shortVault.bytes 0 (toInt shortVault.bytes.length)).result = .ok (0,some 148) ∧
    visits idle fuel shortVault.bytes 0 (toInt shortVault.bytes.length) = [] := by
  have small : shortVault.bytes.length < 2147483648 := by decide +kernel
  refine ⟨incomplete_small idle shortVault small (by decide +kernel),rfl,?_⟩
  intro fuel enough
  obtain ⟨fuel,rfl⟩ := Nat.exists_eq_add_of_le' enough
  obtain ⟨parsed,called⟩ := enter_vault idle shortVault small (fuel+1)
  have late : ¬(shortVault.header.size : Int)+shortVault.header.size < (shortVault.items.bytes.length : Int) := by
    decide +kernel
  rw [parsed,called,parseItems,itemVisits,if_neg late,if_neg late]
  exact ⟨rfl,rfl⟩

end ChuwiMinibook.VaultRuns
