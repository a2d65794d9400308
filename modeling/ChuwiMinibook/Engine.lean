import ChuwiMinibook.StdString
import ChuwiMinibook.Zone

namespace ChuwiMinibook

-- The part of cthd_engine that zones, devices and sensors are reached through.
structure Engine (σ : Type) where
  zones : List Zone
  cdevs : List (Cdev σ)
  sensors : List Sensor
  preference : Int
  ignoreCritical : Bool
deriving DecidableEq

namespace Engine
open StdString
variable {σ : Type}

-- Partial names match between two "pch_" names only.
def typeMatches (name type : String) : Bool :=
  type == name || (startsWith name "pch_" && startsWith type "pch_")

def searchZone (e : Engine σ) (name : String) : Option Nat :=
  e.zones.findIdx? (fun z => typeMatches name z.typeStr)

def searchSensor (e : Engine σ) (name : String) : Option Sensor :=
  e.sensors.find? (fun s => typeMatches name s.typeStr)

def searchCdev (e : Engine σ) (name : String) : Option Nat :=
  e.cdevs.findIdx? (fun c => c.typeStr == name || c.aliasStr == name)

def getZone (e : Engine σ) (type : String) : Option Nat := e.zones.findIdx? (fun z => z.typeStr == type)

def cdevType (e : Engine σ) (k : Nat) : String := (e.cdevs[k]?.map (·.typeStr)).getD ""

variable (m : Cdev.Methods σ) (srt : StdSort)

-- A loop over the zones; samples gives the reading of each sensor of each zone.
def walkZones (visit : Zone → List (Cdev σ) → (Nat → Sample) → Zone.Polled σ) (samples : Nat → Nat → Sample) :
    List Zone → Nat → List (Cdev σ) → List Zone × List (Cdev σ) × List Action
  | [],_,devs => ([],devs,[])
  | z::rest,place,devs =>
    let polled := visit z devs (samples place)
    let (zones,devs,actions) := walkZones visit samples rest (place+1) polled.cdevs
    (polled.zone::zones,devs,polled.actions ++ actions)

def walk (e : Engine σ) (visit : Zone → List (Cdev σ) → (Nat → Sample) → Zone.Polled σ)
    (samples : Nat → Nat → Sample) : Engine σ × List Action :=
  let (zones,devs,actions) := walkZones visit samples e.zones 0 e.cdevs
  ({e with zones := zones,cdevs := devs},actions)

-- zone_temperature_notification on every zone.
def pollZones (e : Engine σ) (samples : Nat → Nat → Sample) : Engine σ × List Action :=
  e.walk (Zone.readZoneTemp m srt e.ignoreCritical e.sensors e.preference) samples

-- The loop of process_pref_change.
def updateZonePreferences (e : Engine σ) (samples : Nat → Nat → Sample) : Engine σ × List Action :=
  e.walk (Zone.updateZonePreference m srt e.ignoreCritical e.sensors e.preference) samples

-- user_set_zone_status; the virtual sensor's timer is not modelled.
def userSetZoneStatus (e : Engine σ) (name : String) (status : Bool) : Engine σ :=
  match e.getZone name with
  | none => e
  | some i => {e with zones := e.zones.modify i (fun z => if status then z.setZoneActive else z.setZoneInactive)}

def userDeleteZone (e : Engine σ) (name : String) : Engine σ :=
  {e with zones := e.zones.eraseP (fun z => z.typeStr == name)}

-- thd_engine_reload_zones; fresh is what read_thermal_zones finds.
def thdEngineReloadZones (e : Engine σ) (fresh : List Zone) : Engine σ := {e with zones := fresh}

end Engine
end ChuwiMinibook
