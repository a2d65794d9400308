import ChuwiMinibook.VbtPatches

namespace ChuwiMinibook.Vbt
open ByteImage

-- Something that the request needs, by the offsets, the sizes and the panel index in
-- the file, is not in it.
def PointsOutside (L : Layout) (f : Image) (o : PatchOpts) : Prop := ∃ vbt,vbtAt f = some vbt ∧ ¬FileInside L f o vbt

def StaysInside (L : Layout) (f : Image) (o : PatchOpts) : Prop :=
  ∃ out,main L f o = some out ∧ (PointsOutside L f o → ∃ message,out = .rejected message)

theorem stays_inside_iff (L : Layout) (f : Image) (o : PatchOpts) :
    StaysInside L f o ↔ ∀ vbt,vbtAt f = some vbt → FileInside L f o vbt := by
  have checks := main_checks L f o
  constructor
  · rintro ⟨out,ran,_⟩
    exact checks.needs (by rw [ran]; rfl)
  · intro inside
    refine ⟨outcome L f o,checks.gives inside,?_⟩
    rintro ⟨vbt,found,outside⟩
    exact absurd (inside vbt found) outside

def noOpts : PatchOpts := ⟨-1,-1,-1,-1,-1,-1,-1,-1,false⟩

def zeros (n : Nat) : Image := List.replicate n 0

-- A header of 48 bytes and a BDB of 59, with block 40 and a block 58 of one entry.
def onePanel (panel : BitVec 8) : Image :=
  [0x24,0x56,0x42,0x54]++zeros 20++[107,0,0,0,48,0,0,0]++zeros 16++
    zeros 18++[22,0,59,0]++[40,1,0,panel]++[58,30,0,28,0]++zeros 28

-- The only panel there is has index 0.
example : main intelVbtDefs (onePanel 0) noOpts = some (.info ⟨0,some ⟨⟨0,0,0,0⟩,0⟩,none⟩) := by decide +kernel

theorem panel_past_file : ¬StaysInside intelVbtDefs (onePanel 4) noOpts := by
  rintro ⟨out,ran,_⟩
  have fault : main intelVbtDefs (onePanel 4) noOpts = none := by decide +kernel
  rw [fault] at ran
  cases ran

end ChuwiMinibook.Vbt
