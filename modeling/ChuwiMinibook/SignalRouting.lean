import ChuwiMinibook.ProxyParts

namespace ChuwiMinibook.SignalRouting
open SensorProxy ProxyParts

-- The sensor type a property belongs to.
def typeOf : Property → DriverType
  | .hasAccelerometer => .accel
  | .accelerometerOrientation => .accel
  | .accelerometerTilt => .accel
  | .hasAmbientLight => .light
  | .lightLevel => .light
  | .hasCompass => .compass
  | .compassHeading => .compass
  | .hasProximity => .proximity
  | .proximityNear => .proximity

theorem maskForSensorType_iff {t : DriverType} {p : Property} : maskForSensorType t p = true ↔ typeOf p = t := by
  cases t <;> cases p <;> decide

theorem propAll_iff {p : Property} : propAll p = true ↔ typeOf p ≠ .compass := by
  cases p <;> decide

theorem propAllCompass_iff {p : Property} : propAllCompass p = true ↔ typeOf p = .compass := by
  cases p <;> decide

theorem nonzero_iff {mask : PropertiesMask} : nonzero mask = true ↔ ∃ p,mask p = true := by
  rw [nonzero,List.any_eq_true]
  constructor
  · rintro ⟨p,_,set⟩
    exact ⟨p,set⟩
  · rintro ⟨p,set⟩
    refine ⟨p,?_,set⟩
    cases p <;> decide

theorem common_iff {a b : PropertiesMask} {p : Property} : common a b p = true ↔ a p = true ∧ b p = true :=
    Bool.and_eq_true_iff

-- A flag of the mask a client is down for.
def Flagged (ht : Interest) (client : String) (p : Property) : Prop := (ht.lookup client).getD noFlags p = true

theorem addInterest_flagged (m : PropertiesMask) (ht : Interest) (client other : String) (p : Property) :
    Flagged (addInterest m ht client) other p ↔ Flagged ht other p ∨ other = client ∧ m p = true := by
  unfold addInterest Flagged
  by_cases same : other = client
  · subst same
    rw [AList.lookup_insert,Option.getD_some]
    change (_ || m p) = true ↔ _
    rw [Bool.or_eq_true]
    exact or_congr_right ⟨fun set => ⟨rfl,set⟩,And.right⟩
  · rw [AList.lookup_insert_ne same]
    exact ⟨.inl,fun given => given.resolve_right (fun wrong => same wrong.1)⟩

theorem table_flagged (m : PropertiesMask) (clients : List String) (ht : Interest) (client : String) (p : Property) :
    Flagged (clients.foldl (addInterest m) ht) client p ↔ Flagged ht client p ∨ client ∈ clients ∧ m p = true := by
  induction clients generalizing ht with
  | nil => exact ⟨.inl,fun given => given.resolve_right (fun wrong => absurd wrong.1 List.not_mem_nil)⟩
  | cons first rest ih =>
    rw [List.foldl_cons,ih,addInterest_flagged,List.mem_cons,or_assoc,or_and_right]

theorem table_mem (m : PropertiesMask) (clients : List String) (ht : Interest) (client : String) :
    client ∈ clients.foldl (addInterest m) ht ↔ client ∈ ht ∨ client ∈ clients := by
  induction clients generalizing ht with
  | nil => exact ⟨.inl,fun given => given.resolve_right List.not_mem_nil⟩
  | cons first rest ih =>
    rw [List.foldl_cons,ih,addInterest,AList.mem_insert,List.mem_cons,or_assoc,or_left_comm]

section
variable {R : Type}

theorem interest_mem (d : SensorData R) (mask : PropertiesMask) (client : String) :
    client ∈ interestOf d mask ↔ ∃ t,client ∈ (d.clients t).keys := by
  unfold interestOf sensorTypes
  simp only [List.foldl_cons,List.foldl_nil,table_mem,AList.notMem_empty,false_or]
  constructor
  · intro given
    rcases given with ((accel | light) | compass) | proximity
    · exact ⟨_,accel⟩
    · exact ⟨_,light⟩
    · exact ⟨_,compass⟩
    · exact ⟨_,proximity⟩
  · rintro ⟨t,claimed⟩
    cases t with
    | accel => exact .inl (.inl (.inl claimed))
    | light => exact .inl (.inl (.inr claimed))
    | compass => exact .inl (.inr claimed)
    | proximity => exact .inr claimed

theorem interest_flagged (d : SensorData R) (mask : PropertiesMask) (client : String) (p : Property) :
    Flagged (interestOf d mask) client p ↔ mask p = true ∧ client ∈ (d.clients (typeOf p)).keys := by
  have start : ¬Flagged ∅ client p := nofun
  unfold interestOf sensorTypes
  simp only [List.foldl_cons,List.foldl_nil,table_flagged,start,false_or,common_iff,maskForSensorType_iff]
  constructor
  · intro given
    rcases given with ((accel | light) | compass) | proximity
    · exact ⟨accel.2.1,accel.2.2 ▸ accel.1⟩
    · exact ⟨light.2.1,light.2.2 ▸ light.1⟩
    · exact ⟨compass.2.1,compass.2.2 ▸ compass.1⟩
    · exact ⟨proximity.2.1,proximity.2.2 ▸ proximity.1⟩
  · rintro ⟨set,claimed⟩
    cases type : typeOf p with
    | accel => exact .inl (.inl (.inl ⟨type ▸ claimed,set,rfl⟩))
    | light => exact .inl (.inl (.inr ⟨type ▸ claimed,set,rfl⟩))
    | compass => exact .inl (.inr ⟨type ▸ claimed,set,rfl⟩)
    | proximity => exact .inr ⟨type ▸ claimed,set,rfl⟩

def sent (mask : PropertiesMask) (d : SensorData R) : List (Signal R) :=
    (sendDbusEvent mask d).signals.drop d.signals.length

-- One signal for each entry; the caches may change between two of them, the devices not.
theorem forClients_signals (entries : List ((_ : String)×PropertiesMask)) (d : SensorData R) :
    ∃ signals,(entries.foldl (fun data entry => sendDbusEventForClient entry.1 entry.2 data) d).signals =
    d.signals++signals ∧
      signals.map Signal.destination = entries.map Sigma.fst ∧
      ∀ signal ∈ signals,∃ entry ∈ entries,∃ d' : SensorData R,
        driverTypeExists d' = driverTypeExists d ∧ signal = signalFor entry.1 entry.2 d' := by
  induction entries generalizing d with
  | nil => exact ⟨[],(List.append_nil _).symm,rfl,fun _ inside => absurd inside List.not_mem_nil⟩
  | cons entry rest ih =>
    obtain ⟨signals,appended,destinations,each⟩ := ih (sendDbusEventForClient entry.1 entry.2 d)
    have devices : driverTypeExists (sendDbusEventForClient entry.1 entry.2 d) = driverTypeExists d :=
      SignalFree.sendDbusEventForClient (fun _ _ _ _ _ _ _ _ => rfl) entry.1 entry.2 d
    have first : (sendDbusEventForClient entry.1 entry.2 d).signals = d.signals++[signalFor entry.1 entry.2 d] := rfl
    rw [devices] at each
    refine ⟨signalFor entry.1 entry.2 d::signals,?_,?_,?_⟩
    · rw [List.foldl_cons,appended,first,List.append_assoc]
      rfl
    · rw [List.map_cons,List.map_cons,destinations]
      rfl
    · intro signal inside
      rcases List.mem_cons.mp inside with rfl | later
      · exact ⟨entry,List.mem_cons_self,d,rfl,rfl⟩
      · obtain ⟨known,listed,made⟩ := each signal later
        exact ⟨known,List.mem_cons_of_mem _ listed,made⟩

theorem sent_destinations (mask : PropertiesMask) (d : SensorData R) :
    (sent mask d).map Signal.destination = (interestOf d mask).keys := by
  obtain ⟨signals,appended,destinations,_⟩ := forClients_signals (interestOf d mask).entries d
  rw [sent,sendDbusEvent,appended,List.drop_left]
  exact destinations

theorem entry_flags {d : SensorData R} {mask : PropertiesMask} {entry : (_ : String)×PropertiesMask}
    (listed : entry ∈ (interestOf d mask).entries) (p : Property) :
    entry.2 p = true ↔ mask p = true ∧ entry.1 ∈ (d.clients (typeOf p)).keys := by
  have found : (interestOf d mask).lookup entry.1 = some entry.2 := AList.mem_lookup_iff.mpr listed
  have flagged := interest_flagged d mask entry.1 p
  rw [Flagged,found] at flagged
  exact flagged

-- The signal to a client is made from the mask the client is down for.
theorem sent_mem {mask : PropertiesMask} {d : SensorData R} {signal : Signal R} (inside : signal ∈ sent mask d) :
    ∃ m,(∀ p,m p = true ↔ mask p = true ∧ signal.destination ∈ (d.clients (typeOf p)).keys) ∧
      ∃ d' : SensorData R,driverTypeExists d' = driverTypeExists d ∧ signal = signalFor signal.destination m d' := by
  obtain ⟨signals,appended,_,each⟩ := forClients_signals (interestOf d mask).entries d
  rw [sent,sendDbusEvent,appended,List.drop_left] at inside
  obtain ⟨entry,listed,d',devices,rfl⟩ := each signal inside
  exact ⟨entry.2,entry_flags listed,d',devices,rfl⟩

theorem announced_of_flag {d : SensorData R} {m : PropertiesMask} {p : Property} (set : m p = true) :
    announced d m p = true := by
  change (m p || _) = true
  rw [set,Bool.true_or]

-- What is added to a mask belongs to a type the mask asks about.
theorem announced_type {d : SensorData R} {m : PropertiesMask} {p : Property} (set : announced d m p = true) :
    ∃ q,m q = true ∧ typeOf q = typeOf p := by
  rcases Bool.or_eq_true_iff.mp set with asked | added
  · exact ⟨p,asked,rfl⟩
  · cases p with
    | hasAccelerometer => exact absurd added nofun
    | accelerometerOrientation => exact ⟨.hasAccelerometer,(Bool.and_eq_true_iff.mp added).1,rfl⟩
    | hasAmbientLight => exact absurd added nofun
    | lightLevel => exact ⟨.hasAmbientLight,(Bool.and_eq_true_iff.mp added).1,rfl⟩
    | hasCompass => exact absurd added nofun
    | compassHeading => exact ⟨.hasCompass,(Bool.and_eq_true_iff.mp added).1,rfl⟩
    | hasProximity => exact absurd added nofun
    | proximityNear => exact ⟨.hasProximity,(Bool.and_eq_true_iff.mp added).1,rfl⟩
    | accelerometerTilt => exact ⟨.hasAccelerometer,(Bool.and_eq_true_iff.mp added).1,rfl⟩

theorem announced_propAll {d : SensorData R} {m : PropertiesMask} :
    nonzero (common (announced d m) propAll) = true ↔ ∃ p,m p = true ∧ typeOf p ≠ .compass := by
  simp only [nonzero_iff,common_iff,propAll_iff]
  constructor
  · rintro ⟨p,set,other⟩
    obtain ⟨q,asked,type⟩ := announced_type set
    exact ⟨q,asked,type ▸ other⟩
  · rintro ⟨p,asked,other⟩
    exact ⟨p,announced_of_flag asked,other⟩

-- The names of the properties of a type on the bus.
def propertyNames : DriverType → List String
  | .accel => ["HasAccelerometer","AccelerometerOrientation","AccelerometerTilt"]
  | .light => ["HasAmbientLight","LightLevelUnit","LightLevel"]
  | .compass => ["HasCompass","CompassHeading"]
  | .proximity => ["HasProximity","ProximityNear"]

theorem propValues_names {d : SensorData R} {p : Property} {prop : String×Value R} (inside : prop ∈ propValues d p) :
    prop.1 ∈ propertyNames (typeOf p) := by
  have names : (propValues d p).map Prod.fst ⊆ propertyNames (typeOf p) := by
    cases p <;> simp [propValues,propertyNames,typeOf]
  exact names (List.mem_map_of_mem inside)

def interfaceOf : DriverType → String
  | .compass => "net.hadess.SensorProxy.Compass"
  | _ => "net.hadess.SensorProxy"

def pathOf : DriverType → String
  | .compass => "/net/hadess/SensorProxy/Compass"
  | _ => "/net/hadess/SensorProxy"

def Interested (d : SensorData R) (mask : PropertiesMask) (client : String) (t : DriverType) : Prop :=
  client ∈ (d.clients t).keys ∧ nonzero (common mask (maskForSensorType t)) = true

theorem interested_iff {d : SensorData R} {mask : PropertiesMask} {client : String} {t : DriverType} :
    Interested d mask client t ↔ client ∈ (d.clients t).keys ∧ ∃ p,mask p = true ∧ typeOf p = t := by
  simp only [Interested,nonzero_iff,common_iff,maskForSensorType_iff]

-- One signal to each client with a type the mask asks about, on the interface of that
-- type and with properties of its types only, and none to any other client.
structure Routed (d : SensorData R) (mask : PropertiesMask) : Prop where
  told : ∀ client t,Interested d mask client t → ((sent mask d).map Signal.destination).count client = 1
  spared : ∀ client,(∀ t,¬Interested d mask client t) → client ∉ (sent mask d).map Signal.destination
  addressed : ∀ signal ∈ sent mask d,∀ t,Interested d mask signal.destination t →
    signal.interface = interfaceOf t ∧ signal.path = pathOf t
  restricted : ∀ signal ∈ sent mask d,∀ prop ∈ signal.props,
    ∃ t,signal.destination ∈ (d.clients t).keys ∧ prop.1 ∈ propertyNames t

def Unmixed (mask : PropertiesMask) : Prop :=
  nonzero (common mask propAll) = false ∨ nonzero (common mask propAllCompass) = false

theorem sent_told {d : SensorData R} {mask : PropertiesMask} {client : String} {t : DriverType}
    (claimed : client ∈ (d.clients t).keys) : ((sent mask d).map Signal.destination).count client = 1 := by
  rw [sent_destinations]
  exact List.count_eq_one_of_mem (interestOf d mask).keys_nodup ((interest_mem d mask client).mpr ⟨t,claimed⟩)

theorem sent_restricted {d : SensorData R} {mask : PropertiesMask} {signal : Signal R} (inside : signal ∈ sent mask d)
    {prop : String×Value R} (listed : prop ∈ signal.props) :
    ∃ t,signal.destination ∈ (d.clients t).keys ∧ prop.1 ∈ propertyNames t := by
  obtain ⟨m,flags,d',_,made⟩ := sent_mem inside
  rw [made] at listed
  obtain ⟨p,set,valued⟩ := List.mem_flatMap.mp listed
  obtain ⟨q,asked,type⟩ := announced_type (List.mem_filter.mp set).2
  refine ⟨typeOf q,((flags q).mp asked).2,?_⟩
  rw [type]
  exact propValues_names valued

theorem sent_addressed {d : SensorData R} {mask : PropertiesMask} (unmixed : Unmixed mask) {signal : Signal R}
    (inside : signal ∈ sent mask d) {t : DriverType} (interested : Interested d mask signal.destination t) :
    signal.interface = interfaceOf t ∧ signal.path = pathOf t := by
  obtain ⟨m,flags,d',_,made⟩ := sent_mem inside
  obtain ⟨claimed,p,asked,type⟩ := interested_iff.mp interested
  have set : m p = true := (flags p).mpr ⟨asked,type ▸ claimed⟩
  by_cases compass : t = .compass
  · subst compass
    have alone : ¬nonzero (common (announced d' m) propAll) = true := by
      rw [announced_propAll]
      rintro ⟨q,other,differs⟩
      rcases unmixed with plain | heading
      · refine Bool.eq_false_iff.mp plain (nonzero_iff.mpr ⟨q,?_⟩)
        exact common_iff.mpr ⟨((flags q).mp other).1,propAll_iff.mpr differs⟩
      · refine Bool.eq_false_iff.mp heading (nonzero_iff.mpr ⟨p,?_⟩)
        exact common_iff.mpr ⟨asked,propAllCompass_iff.mpr type⟩
    rw [made]
    simp only [signalFor,alone]
    exact ⟨rfl,rfl⟩
  · have main : nonzero (common (announced d' m) propAll) = true := announced_propAll.mpr ⟨p,set,type ▸ compass⟩
    rw [made]
    simp only [signalFor,main,if_true]
    cases t with
    | compass => exact absurd rfl compass
    | accel => exact ⟨rfl,rfl⟩
    | light => exact ⟨rfl,rfl⟩
    | proximity => exact ⟨rfl,rfl⟩

theorem signals_routed_iff (d : SensorData R) (mask : PropertiesMask) (unmixed : Unmixed mask) :
    Routed d mask ↔ ∀ client t,client ∈ (d.clients t).keys → ∃ u,Interested d mask client u := by
  constructor
  · intro routed client t claimed
    by_contra nowhere
    have told : ((sent mask d).map Signal.destination).count client = 1 := sent_told claimed
    have spared := routed.spared client (fun u interested => nowhere ⟨u,interested⟩)
    rw [List.count_eq_zero.mpr spared] at told
    exact absurd told (by decide)
  · intro everyone
    refine ⟨fun client t interested => sent_told interested.1,?_,?_,?_⟩
    · intro client nowhere listed
      rw [sent_destinations] at listed
      obtain ⟨t,claimed⟩ := (interest_mem d mask client).mp listed
      obtain ⟨u,interested⟩ := everyone client t claimed
      exact nowhere u interested
    · exact fun signal inside t interested => sent_addressed unmixed inside interested
    · exact fun signal inside prop listed => sent_restricted inside listed

end

-- Two clients with one sensor each.
def twoClients : SensorData Int := addClient ":1.5" .light (addClient ":1.4" .accel initialData)

theorem signals_routed_two_clients : Routed twoClients propAll := by
  refine (signals_routed_iff twoClients propAll (.inr (by decide))).mpr ?_
  intro client t claimed
  cases t with
  | accel => exact ⟨.accel,claimed,by decide⟩
  | light => exact ⟨.light,claimed,by decide⟩
  | compass => exact absurd claimed List.not_mem_nil
  | proximity => exact absurd claimed List.not_mem_nil

theorem light_client_told_of_orientation :
    (∀ t,¬Interested twoClients (maskOf [.accelerometerOrientation]) ":1.5" t) ∧
      ⟨":1.5","/net/hadess/SensorProxy/Compass","net.hadess.SensorProxy.Compass",[]⟩ ∈
        sent (maskOf [.accelerometerOrientation]) twoClients ∧
      ¬Routed twoClients (maskOf [.accelerometerOrientation]) := by
  have unasked : ∀ t,¬Interested twoClients (maskOf [.accelerometerOrientation]) ":1.5" t := by
    intro t interested
    cases t with
    | accel => exact absurd interested.1 (by decide)
    | light => exact absurd interested.2 (by decide)
    | compass => exact absurd interested.2 (by decide)
    | proximity => exact absurd interested.2 (by decide)
  have told : ⟨":1.5","/net/hadess/SensorProxy/Compass","net.hadess.SensorProxy.Compass",[]⟩ ∈
      sent (maskOf [.accelerometerOrientation]) twoClients := by
    decide +kernel
  exact ⟨unasked,told,fun routed => routed.spared ":1.5" unasked (List.mem_map_of_mem told)⟩

end ChuwiMinibook.SignalRouting
