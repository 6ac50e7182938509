import PowerTables.Network.Edit

/-!
# Sample networks

Three small networks to try things on.  Their values are in physical units and look like those
of a solved load flow, so that the computed columns are filled as well.

## Main definitions

* `Element` : a category, a row key and some values.
* `Network.ofElements` : the network made by adding elements one after another.
* `Sample` : the sample networks, with their names.
* `Sample.network` : the network of a sample.
-/

namespace PowerTables

/-- An element to be added to a network. -/
structure Element where
  category : Category
  key : RowKey
  entries : List Entry

namespace Entry

/-- A text for a column. -/
def string (column value : String) : Entry := ⟨column, .ofString value⟩

/-- A double for a column. -/
def double (column : String) (value : Float) : Entry := ⟨column, .ofDouble value⟩

/-- An integer for a column. -/
def int (column : String) (value : Int64) : Entry := ⟨column, .ofInt value⟩

/-- A truth value for a column. -/
def boolean (column : String) (value : Bool) : Entry := ⟨column, .ofBool value⟩

end Entry

namespace Network

/-- Appends an element to the working variant. -/
def add (n : Network) (e : Element) : Except NetworkError Network := do
  let cells ← e.category.newRow e.key e.entries
  n.updateTables fun ts => ts.push e.category e.key cells

/-- The network made by adding elements one after another. -/
def ofElements (metadata : Metadata) (elements : List Element) : Except NetworkError Network :=
  elements.foldlM add (.new metadata)

end Network

/-- A sample network. -/
inductive Sample
  | fourSubstations
  | eurostagExample
  | danglingLine
  deriving DecidableEq, Repr

namespace Sample

/-- The samples. -/
def all : List Sample := [fourSubstations, eurostagExample, danglingLine]

/-- The name of a sample. -/
def name : Sample → String
  | fourSubstations => "four_substations"
  | eurostagExample => "eurostag_example"
  | danglingLine => "dangling_line"

/-- The sample of a name. -/
def ofName? (name : String) : Option Sample := all.find? (·.name == name)

/-- The metadata of a sample: the case is an hour of the first of January 2018. -/
def metadataOf (id : String) (hour : Nat) : Metadata :=
  ⟨id, id, "test", .ofDateHour ⟨2018, 1, 1⟩ hour, 0⟩

/-- The id of the bus of a voltage level. -/
def busOf (level : String) : String := level ++ "_0"

/-- The voltage level and the bus of an element, which is connected. -/
def atLevel (level : String) : List Entry :=
  [.string "voltage_level_id" level, .string "bus_id" (busOf level), .boolean "connected" true]

/-- The voltage levels and buses of an element with two ends, which is connected. -/
def betweenLevels (level1 level2 : String) : List Entry :=
  [.string "voltage_level1_id" level1, .string "voltage_level2_id" level2,
   .string "bus1_id" (busOf level1), .string "bus2_id" (busOf level2),
   .boolean "connected1" true, .boolean "connected2" true]

/-- The computed power and current at both ends. -/
def flows (p1 q1 i1 p2 q2 i2 : Float) : List Entry :=
  [.double "p1" p1, .double "q1" q1, .double "i1" i1,
   .double "p2" p2, .double "q2" q2, .double "i2" i2]

/-- A substation. -/
def substation (id country tso : String) : Element :=
  ⟨.substation, .plain id, [.string "TSO" tso, .string "country" country]⟩

/-- A voltage level. -/
def voltageLevel (id substation : String) (nominal low high : Float) : Element :=
  ⟨.voltageLevel, .plain id,
    [.string "substation_id" substation, .double "nominal_v" nominal,
     .double "low_voltage_limit" low, .double "high_voltage_limit" high]⟩

/-- The bus of a voltage level. -/
def bus (level : String) (magnitude angle : Float) : Element :=
  ⟨.bus, .plain (busOf level),
    [.double "v_mag" magnitude, .double "v_angle" angle, .string "voltage_level_id" level]⟩

/-- A load whose computed power is its constant power. -/
def load (id level : String) (p0 q0 : Float) : Element :=
  ⟨.load, .plain id,
    [.string "type" "UNDEFINED", .double "p0" p0, .double "q0" q0, .double "p" p0,
     .double "q" q0] ++ atLevel level⟩

/-- A busbar section. -/
def busbarSection (id level : String) (v angle : Float) : Element :=
  ⟨.busbarSection, .plain id,
    [.double "v" v, .double "angle" angle, .string "voltage_level_id" level,
     .boolean "connected" true]⟩

/-- The limits and targets of a generator. -/
structure Machine where
  source : String
  targetP : Float
  minP : Float
  maxP : Float
  minQ : Float
  maxQ : Float
  targetV : Float
  targetQ : Float

/-- A generator that regulates voltage. -/
def generator (id level : String) (m : Machine) (p q i : Float) : Element :=
  ⟨.generator, .plain id,
    [.string "energy_source" m.source, .double "target_p" m.targetP, .double "min_p" m.minP,
     .double "max_p" m.maxP, .double "min_q" m.minQ, .double "max_q" m.maxQ,
     .double "target_v" m.targetV, .double "target_q" m.targetQ,
     .boolean "voltage_regulator_on" true, .double "p" p, .double "q" q,
     .double "i" i] ++ atLevel level⟩

/-- A line; both ends have the same shunt susceptance and no conductance. -/
def line (id level1 level2 : String) (r x b : Float) (computed : List Entry) : Element :=
  ⟨.line, .plain id,
    [.double "r" r, .double "x" x, .double "g1" 0.0, .double "b1" b, .double "g2" 0.0,
     .double "b2" b] ++ computed ++ betweenLevels level1 level2⟩

/-- A transformer with two windings and no shunt conductance. -/
def transformer (id level1 level2 : String) (r x b ratedU1 ratedU2 : Float)
    (computed : List Entry) : Element :=
  ⟨.twoWindingsTransformer, .plain id,
    [.double "r" r, .double "x" x, .double "g" 0.0, .double "b" b, .double "rated_u1" ratedU1,
     .double "rated_u2" ratedU2] ++ computed ++ betweenLevels level1 level2⟩

/-- The entries of a tap changer in the middle one of three positions. -/
def taps : List Entry :=
  [.int "tap" 1, .int "low_tap" 0, .int "high_tap" 2, .int "step_count" 3]

/-- A point of a reactive capability curve. -/
def curvePoint (id : String) (number : Int64) (p minQ maxQ : Float) : Element :=
  ⟨.reactiveCapabilityCurvePoint, .numbered id number,
    [.double "p" p, .double "min_q" minQ, .double "max_q" maxQ]⟩

/-- A step of a ratio tap changer without effect on the impedance. -/
def ratioStep (id : String) (number : Int64) (rho : Float) : Element :=
  ⟨.ratioTapChangerStep, .numbered id number,
    [.double "rho" rho, .double "r" 0.0, .double "x" 0.0, .double "g" 0.0, .double "b" 0.0]⟩

/-- A step of a phase tap changer. -/
def phaseStep (id : String) (number : Int64) (alpha : Float) : Element :=
  ⟨.phaseTapChangerStep, .numbered id number,
    [.double "rho" 1.0, .double "alpha" alpha, .double "r" 39.78, .double "x" 39.78,
     .double "g" 0.0, .double "b" 0.0]⟩

/-- A voltage-source converter station. -/
def vscStation (id level : String) (setpoint reactive : Float) (regulating : Bool)
    (p q i : Float) : Element :=
  ⟨.vscConverterStation, .plain id,
    [.double "loss_factor" 1.1, .double "voltage_setpoint" setpoint,
     .double "reactive_power_setpoint" reactive, .boolean "voltage_regulator_on" regulating,
     .double "p" p, .double "q" q, .double "i" i] ++ atLevel level⟩

/-- A line-commutated converter station. -/
def lccStation (id level : String) (p q i : Float) : Element :=
  ⟨.lccConverterStation, .plain id,
    [.double "power_factor" 0.6, .double "loss_factor" 1.1, .double "p" p, .double "q" q,
     .double "i" i] ++ atLevel level⟩

/-- A direct-current line between two converter stations. -/
def hvdcLine (id station1 station2 : String) (setpoint : Float) : Element :=
  ⟨.hvdcLine, .plain id,
    [.string "converters_mode" "SIDE_1_RECTIFIER_SIDE_2_INVERTER",
     .double "active_power_setpoint" setpoint, .double "max_p" 300.0,
     .double "nominal_v" 400.0, .double "r" 1.0, .string "converter_station1_id" station1,
     .string "converter_station2_id" station2, .boolean "connected1" true,
     .boolean "connected2" true]⟩

/-- A closed switch. -/
def closedSwitch (id kind level : String) : Element :=
  ⟨.switch, .plain id,
    [.string "kind" kind, .boolean "open" false, .boolean "retained" (kind == "BREAKER"),
     .string "voltage_level_id" level]⟩

/-- The machine of a generator of the four substations. -/
def substationMachine (source : String) (targetP maxP : Float) : Machine :=
  ⟨source, targetP, 0.0, maxP, -769.3, 860.0, 400.0, 0.0⟩

/-- Four substations with one voltage level at 225 kV and four at 400 kV, two lines, a
phase-shifting transformer and two direct-current lines. -/
def fourSubstationsElements : List Element :=
  ["S1", "S2", "S3", "S4"].map (fun id => substation id "FR" "RTE") ++
  [voltageLevel "S1VL1" "S1" 225.0 220.0 240.0,
   voltageLevel "S1VL2" "S1" 400.0 390.0 440.0,
   voltageLevel "S2VL1" "S2" 400.0 390.0 440.0,
   voltageLevel "S3VL1" "S3" 400.0 390.0 440.0,
   voltageLevel "S4VL1" "S4" 400.0 390.0 440.0,
   bus "S1VL1" 224.6139 2.2822,
   bus "S1VL2" 400.0 0.0,
   bus "S2VL1" 408.847 0.7347,
   bus "S3VL1" 400.0 0.0,
   bus "S4VL1" 400.0 (-1.1259),
   busbarSection "S1VL1_BBS" "S1VL1" 224.6139 2.2822,
   busbarSection "S1VL2_BBS1" "S1VL2" 400.0 0.0,
   busbarSection "S1VL2_BBS2" "S1VL2" 400.0 0.0,
   busbarSection "S2VL1_BBS" "S2VL1" 408.847 0.7347,
   busbarSection "S3VL1_BBS" "S3VL1" 400.0 0.0,
   busbarSection "S4VL1_BBS" "S4VL1" 400.0 (-1.1259),
   generator "GH1" "S1VL2" (substationMachine "HYDRO" 100.0 150.0) (-100.0) (-75.8) 181.1,
   generator "GH2" "S1VL2" (substationMachine "HYDRO" 110.0 200.0) (-110.0) (-75.8) 192.8,
   generator "GH3" "S1VL2" (substationMachine "HYDRO" 100.0 200.0) (-100.0) (-75.8) 181.1,
   generator "GTH1" "S2VL1" (substationMachine "THERMAL" 100.0 200.0) (-100.0) 19.5 144.0,
   generator "GTH2" "S3VL1" (substationMachine "THERMAL" 250.9944 400.0) (-250.9944) (-71.8)
     376.8,
   curvePoint "GH1" 0 0.0 (-769.3) 860.0,
   curvePoint "GH1" 1 100.0 (-864.55) 946.25,
   load "LD1" "S1VL2" 80.0 10.0,
   load "LD2" "S1VL2" 60.0 5.0,
   load "LD3" "S3VL1" 60.0 5.0,
   load "LD4" "S3VL1" 40.0 5.0,
   load "LD5" "S4VL1" 200.0 5.0,
   load "LD6" "S4VL1" 0.0 0.0,
   line "LINE_S2S3" "S2VL1" "S3VL1" 0.01 19.1 0.0
     (flows 109.889 190.023 309.979 (-109.886) (-184.517) 309.978),
   line "LINE_S3S4" "S3VL1" "S4VL1" 0.01 13.1 0.0
     (flows 240.004 2.1751 346.43 (-240.0) 2.5415 346.43),
   transformer "TWT" "S1VL1" "S1VL2" 2.0 14.745 3.2e-5 225.0 400.0
     (flows (-80.0) (-10.0) 207.2 80.0809 5.4857 115.8),
   ⟨.phaseTapChanger, .plain "TWT",
     taps ++ [.boolean "regulating" false, .string "regulation_mode" "FIXED_TAP",
       .string "regulating_bus_id" (busOf "S1VL1")]⟩,
   phaseStep "TWT" 0 (-42.8),
   phaseStep "TWT" 1 0.0,
   phaseStep "TWT" 2 42.8,
   ⟨.shuntCompensator, .plain "SHUNT",
     [.string "model_type" "LINEAR", .int "max_section_count" 1, .int "section_count" 1,
      .double "q" 1920.0] ++ atLevel "S1VL2"⟩,
   vscStation "VSC1" "S1VL2" 400.0 500.0 true 10.11 (-512.081) 739.3,
   vscStation "VSC2" "S2VL1" 0.0 120.0 false (-9.89) (-120.0) 170.0,
   lccStation "LCC1" "S1VL2" 80.88 107.84 194.6,
   lccStation "LCC2" "S3VL1" (-79.12) 105.493 190.3,
   hvdcLine "HVDC1" "VSC1" "VSC2" 10.0,
   hvdcLine "HVDC2" "LCC1" "LCC2" 80.0,
   ⟨.staticVarCompensator, .plain "SVC",
     [.double "voltage_setpoint" 400.0, .string "regulation_mode" "VOLTAGE", .double "p" 0.0,
      .double "q" (-12.5415), .double "i" 18.1] ++ atLevel "S4VL1"⟩,
   closedSwitch "S1VL1_BBS_TWT_DISCONNECTOR" "DISCONNECTOR" "S1VL1",
   closedSwitch "S1VL2_COUPLER" "BREAKER" "S1VL2",
   closedSwitch "S3VL1_LINES3S4_BREAKER" "BREAKER" "S3VL1",
   closedSwitch "S4VL1_LD6_BREAKER" "BREAKER" "S4VL1"]

/-- A voltage level of the second sample, without limits. -/
def unlimitedLevel (id substation : String) (nominal : Float) : Element :=
  voltageLevel id substation nominal Double.nan Double.nan

/-- A generator of the second sample. -/
def eurostagGenerator (id : String) (minQ maxQ : Float) : Element :=
  generator id "VLGEN" ⟨"OTHER", 607.0, -9999.99, 9999.99, minQ, maxQ, 24.5, 301.0⟩
    (-302.781) (-112.641) 7612.9

/-- A line of the second sample. -/
def eurostagLine (id : String) : Element :=
  line id "VLHV1" "VLHV2" 3.0 33.0 1.93e-4
    (flows 302.444 98.74 456.77 (-300.434) (-137.188) 488.99)

/-- Two generators, two lines at 380 kV, transformers up and down, and one load. -/
def eurostagElements : List Element :=
  [substation "P1" "FR" "RTE",
   substation "P2" "BE" "RTE",
   unlimitedLevel "VLGEN" "P1" 24.0,
   unlimitedLevel "VLHV1" "P1" 380.0,
   unlimitedLevel "VLHV2" "P2" 380.0,
   unlimitedLevel "VLLOAD" "P2" 150.0,
   bus "VLGEN" 24.5 2.3259868,
   bus "VLHV1" 402.1428 0.0,
   bus "VLHV2" 389.9527 (-3.5063581),
   bus "VLLOAD" 147.5786 (-9.6144858),
   eurostagGenerator "GEN" (-9999.99) 9999.99,
   eurostagGenerator "GEN2" (-1.79769e306) 1.79769e306,
   load "LOAD" "VLLOAD" 600.0 200.0,
   eurostagLine "NHV1_NHV2_1",
   eurostagLine "NHV1_NHV2_2",
   transformer "NGEN_NHV1" "VLGEN" "VLHV1" 0.2654 11.1045 0.0 24.0 400.0
     (flows 605.56 225.28 15226.0 (-604.89) (-197.48) 913.5),
   transformer "NHV2_NLOAD" "VLHV2" "VLLOAD" 0.0474 4.05 0.0 400.0 158.0
     (flows 600.87 274.38 977.97 (-600.0) (-200.0) 2474.26),
   ⟨.ratioTapChanger, .plain "NHV2_NLOAD",
     taps ++ [.boolean "on_load" true, .boolean "regulating" true, .double "target_v" 158.0,
       .double "target_deadband" 0.0, .string "regulating_bus_id" (busOf "VLLOAD")]⟩,
   ratioStep "NHV2_NLOAD" 0 0.8509,
   ratioStep "NHV2_NLOAD" 1 1.0,
   ratioStep "NHV2_NLOAD" 2 1.1491]

/-- One voltage level at 100 kV with a generator and a dangling line. -/
def danglingLineElements : List Element :=
  [substation "S" "FR" "RTE",
   unlimitedLevel "VL" "S" 100.0,
   bus "VL" 100.0 0.0,
   generator "G" "VL" ⟨"OTHER", 50.0, 0.0, 70.0, -100.0, 100.0, 100.0, 30.0⟩
     (-54.8154) (-30.2926) 361.6,
   ⟨.danglingLine, .plain "DL",
     [.double "r" 10.0, .double "x" 1.0, .double "g" 1e-4, .double "b" 1e-5,
      .double "p0" 50.0, .double "q0" 30.0, .double "p" 54.8154, .double "q" 30.2926,
      .double "i" 361.6] ++ atLevel "VL"⟩]

/-- The metadata of a sample. -/
def metadata : Sample → Metadata
  | fourSubstations => metadataOf "fourSubstations" 11
  | eurostagExample => metadataOf "sim1" 10
  | danglingLine => metadataOf "dangling-line" 11

/-- The elements of a sample. -/
def elements : Sample → List Element
  | fourSubstations => fourSubstationsElements
  | eurostagExample => eurostagElements
  | danglingLine => danglingLineElements

/-- The network of a sample. -/
def network (s : Sample) : Except NetworkError Network :=
  Network.ofElements s.metadata s.elements

end Sample

end PowerTables
