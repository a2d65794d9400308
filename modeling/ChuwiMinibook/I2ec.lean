import ChuwiMinibook.FlatMemory
import Mathlib.Data.BitVec

namespace ChuwiMinibook.I2ec
open FlatMemory Machine

def pnpcfgIndex : BitVec 16 := 0x4E
def pnpcfgData : BitVec 16 := 0x4F
def pnpcfgD2adr : BitVec 8 := 0x2E
def pnpcfgD2dat : BitVec 8 := 0x2F
def i2ecSubAddrL : BitVec 8 := 0x10
def i2ecSubAddrH : BitVec 8 := 0x11
def i2ecSubData : BitVec 8 := 0x12

-- The chip behind the two ports: the index register, the PNPCFG registers it
-- selects, the Depth-2 registers that D2ADR selects, and the EC's address space.
structure Pnpcfg where
  index : BitVec 8
  config : BitVec 8 → BitVec 8
  d2adr : BitVec 8
  addrL : BitVec 8
  addrH : BitVec 8
  depth2 : BitVec 8 → BitVec 8
  ram : BitVec 16 → BitVec 8

def Pnpcfg.addr (p : Pnpcfg) : BitVec 16 := p.addrH++p.addrL

def writeD2dat (value : BitVec 8) (p : Pnpcfg) : Pnpcfg :=
  if p.d2adr = i2ecSubAddrL then {p with addrL := value}
  else if p.d2adr = i2ecSubAddrH then {p with addrH := value}
  else if p.d2adr = i2ecSubData then {p with ram := Function.update p.ram p.addr value}
  else {p with depth2 := Function.update p.depth2 p.d2adr value}

def readD2dat (p : Pnpcfg) : BitVec 8 :=
  if p.d2adr = i2ecSubAddrL then p.addrL
  else if p.d2adr = i2ecSubAddrH then p.addrH
  else if p.d2adr = i2ecSubData then p.ram p.addr
  else p.depth2 p.d2adr

def outb (value : BitVec 8) (port : BitVec 16) (p : Pnpcfg) : Pnpcfg :=
  if port = pnpcfgIndex then {p with index := value}
  else if port = pnpcfgData then
    if p.index = pnpcfgD2adr then {p with d2adr := value}
    else if p.index = pnpcfgD2dat then writeD2dat value p
    else {p with config := Function.update p.config p.index value}
  else p

-- A port that nothing answers reads as all ones.
def inb (port : BitVec 16) (p : Pnpcfg) : BitVec 8 :=
  if port = pnpcfgIndex then p.index
  else if port = pnpcfgData then
    if p.index = pnpcfgD2adr then p.d2adr
    else if p.index = pnpcfgD2dat then readD2dat p
    else p.config p.index
  else 0xFF

def pnpcfgSelect (index subIndex : BitVec 8) (p : Pnpcfg) : Pnpcfg :=
  outb subIndex pnpcfgData (outb index pnpcfgIndex p)

-- The first four selections of both accesses. The mutex makes each access one step.
def setAddr (addr : BitVec 16) (p : Pnpcfg) : Pnpcfg :=
  let p := pnpcfgSelect pnpcfgD2adr i2ecSubAddrH p
  let p := pnpcfgSelect pnpcfgD2dat (((addr >>> 8) &&& 0xFF).setWidth 8) p
  let p := pnpcfgSelect pnpcfgD2adr i2ecSubAddrL p
  pnpcfgSelect pnpcfgD2dat ((addr &&& 0xFF).setWidth 8) p

def minibookEcI2ecRead (p : Pnpcfg) (addr : BitVec 16) : Pnpcfg × BitVec 8 :=
  let p := setAddr addr p
  let p := pnpcfgSelect pnpcfgD2adr i2ecSubData p
  let p := outb pnpcfgD2dat pnpcfgIndex p
  (p,inb pnpcfgData p)

def minibookEcI2ecWrite (p : Pnpcfg) (addr : BitVec 16) (val : BitVec 8) : Pnpcfg :=
  let p := setAddr addr p
  let p := pnpcfgSelect pnpcfgD2adr i2ecSubData p
  pnpcfgSelect pnpcfgD2dat val p

abbrev Call := Access (BitVec 16) (BitVec 8)

def step (p : Pnpcfg) : Call → Pnpcfg
  | .read addr => (minibookEcI2ecRead p addr).1
  | .write addr val => minibookEcI2ecWrite p addr val

theorem select_d2adr (p : Pnpcfg) (sub : BitVec 8) :
    pnpcfgSelect pnpcfgD2adr sub p = {p with index := pnpcfgD2adr,d2adr := sub} := rfl

theorem select_d2dat (p : Pnpcfg) (value : BitVec 8) :
    pnpcfgSelect pnpcfgD2dat value p = writeD2dat value {p with index := pnpcfgD2dat} := rfl

theorem setWidth_and_ff (x : BitVec 16) : (x &&& 0xFF).setWidth 8 = x.setWidth 8 := by
  have ones : ∀ i < 8,(0xFF : BitVec 16).getLsbD i = true := by decide
  apply BitVec.eq_of_getLsbD_eq
  intro i bound
  simp only [BitVec.getLsbD_setWidth,BitVec.getLsbD_and,ones i bound,Bool.and_true]

-- The halves of an address, put together as the chip does.
theorem halves (addr : BitVec 16) : ((addr >>> 8) &&& 0xFF).setWidth 8++(addr &&& 0xFF).setWidth 8 = addr := by
  rw [setWidth_and_ff,setWidth_and_ff]
  apply BitVec.eq_of_getLsbD_eq
  intro i bound
  rw [BitVec.getLsbD_append]
  by_cases low : i < 8
  · simp [low]
  · have place : 8+(i-8) = i := by omega
    have high : i-8 < 8 := by omega
    simp [low,high,BitVec.getLsbD_ushiftRight,place]

theorem setAddr_eq (addr : BitVec 16) (p : Pnpcfg) : setAddr addr p = { p with
      index := pnpcfgD2dat
      d2adr := i2ecSubAddrL
      addrL := (addr &&& 0xFF).setWidth 8
      addrH := ((addr >>> 8) &&& 0xFF).setWidth 8 } := by
  simp only [setAddr,select_d2adr,select_d2dat]
  rfl

theorem setAddr_addr (addr : BitVec 16) (p : Pnpcfg) : (setAddr addr p).addr = addr := by
  rw [setAddr_eq]
  exact halves addr

theorem setAddr_ram (addr : BitVec 16) (p : Pnpcfg) : (setAddr addr p).ram = p.ram := by
  rw [setAddr_eq]

theorem read_eq (p : Pnpcfg) (addr : BitVec 16) : minibookEcI2ecRead p addr =
    ({setAddr addr p with index := pnpcfgD2dat,d2adr := i2ecSubData},(setAddr addr p).ram (setAddr addr p).addr) := rfl

theorem write_eq (p : Pnpcfg) (addr : BitVec 16) (val : BitVec 8) : minibookEcI2ecWrite p addr val = { setAddr addr p with
      index := pnpcfgD2dat
      d2adr := i2ecSubData
      ram := Function.update (setAddr addr p).ram (setAddr addr p).addr val } := rfl

theorem read_spec (p : Pnpcfg) (addr : BitVec 16) :
    (minibookEcI2ecRead p addr).2 = p.ram addr ∧ (minibookEcI2ecRead p addr).1.ram = p.ram := by
  rw [read_eq,setAddr_addr,setAddr_ram]
  exact ⟨rfl,setAddr_ram addr p⟩

theorem write_spec (p : Pnpcfg) (addr : BitVec 16) (val : BitVec 8) :
    (minibookEcI2ecWrite p addr val).ram = Function.update p.ram addr val := by
  rw [write_eq,setAddr_addr,setAddr_ram]

-- The registers of the other devices behind the two ports stay as they are.
theorem step_others (p : Pnpcfg) (call : Call) : (step p call).config = p.config ∧ (step p call).depth2 = p.depth2 := by
  have kept (addr : BitVec 16) : (setAddr addr p).config = p.config ∧ (setAddr addr p).depth2 = p.depth2 := by
    rw [setAddr_eq]
    exact ⟨rfl,rfl⟩
  cases call with
  | read addr =>
    rw [step,read_eq]
    exact kept addr
  | write addr val =>
    rw [step,write_eq]
    exact kept addr

theorem serves : Serves (fun p addr => (minibookEcI2ecRead p addr).2) step Pnpcfg.ram where
  answer p addr := (read_spec p addr).1
  memory p call := by
    cases call with
    | read addr => exact (read_spec p addr).2
    | write addr val => exact write_spec p addr val

-- Whatever the registers hold at the start: a read returns what was last written
-- to its address, and an access changes no address but the one it writes.
theorem i2ec_refines_flat_memory (p : Pnpcfg) (calls : List Call) :
    Stepwise (fun before call =>
      (∀ addr,call = .read addr →
        (minibookEcI2ecRead (run step p before) addr).2 = lastWrite p.ram before addr) ∧
      ∀ addr,(∀ val,call ≠ .write addr val) →
        (step (run step p before) call).ram addr = (run step p before).ram addr) calls ∧
    (run step p calls).ram = lastWrite p.ram calls := by
  refine ⟨?_,serves.run p calls⟩
  intro before call after _
  refine ⟨fun addr _ => serves.read_last p before addr,?_⟩
  intro addr other
  rw [serves.memory]
  exact perform_other other

end ChuwiMinibook.I2ec
