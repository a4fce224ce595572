import CimStore.Record.Class

/-!
# The records of the standard classes

The CGMES subset: voltages and containers, nodes and terminals, conducting equipment, operational
limits and bus-branch topology. Every class is a record of its identity, the naming attributes of
`IdentifiedObject` and its own and otherwise inherited attributes, and a table that ties the names
to the fields.
-/

namespace CimStore

/-- The naming attributes that every class inherits. -/
structure IdentifiedObject where
  mrid : Option String := none
  name : Option String := none
  description : Option String := none
  shortName : Option String := none

/-- Where a class has the naming attributes, and how they are called. -/
def identifiedObjectAttributes {σ : Type} (identified : Borrow σ IdentifiedObject) :
    List (Attribute σ) :=
  [ .primitive "IdentifiedObject.mRID" .string (fun o => stringText (identified.get o).mrid)
      ((identified.part ⟨(·.mrid), fun v o => { o with mrid := v }⟩).run ∘ setString),
    .primitive "IdentifiedObject.name" .string (fun o => stringText (identified.get o).name)
      ((identified.part ⟨(·.name), fun v o => { o with name := v }⟩).run ∘ setString),
    .primitive "IdentifiedObject.description" .string
      (fun o => stringText (identified.get o).description)
      ((identified.part ⟨(·.description), fun v o => { o with description := v }⟩).run ∘
        setString),
    (Attribute.primitive "IdentifiedObject.shortName" .string
      (fun o => stringText (identified.get o).shortName)
      ((identified.part ⟨(·.shortName), fun v o => { o with shortName := v }⟩).run ∘
        setString)).inNamespace europeanNamespace ]

/-! ## Voltages and containers -/

/-- A nominal voltage that is shared by the equipment of a voltage level. -/
structure BaseVoltage where
  base : ObjectBase := {}
  identified : IdentifiedObject := {}
  /-- In kV. -/
  nominalVoltage : Option (Binary binary64) := none

structure Substation where
  base : ObjectBase := {}
  identified : IdentifiedObject := {}
  /-- The geographical region. It usually stands in a boundary model. -/
  region : Reference := .empty

structure VoltageLevel where
  base : ObjectBase := {}
  identified : IdentifiedObject := {}
  highVoltageLimit : Option (Binary binary64) := none
  lowVoltageLimit : Option (Binary binary64) := none
  substation : Reference := .empty
  baseVoltage : Reference := .empty

/-! ## Nodes and terminals -/

structure ConnectivityNode where
  base : ObjectBase := {}
  identified : IdentifiedObject := {}
  container : Reference := .empty
  /-- The inverse of a terminal's reference, which is not used. -/
  terminals : ReferenceSet := .empty

/-- Where conducting equipment is connected. -/
structure Terminal where
  base : ObjectBase := {}
  identified : IdentifiedObject := {}
  sequenceNumber : Option Integer64 := none
  connected : Option Bool := none
  phases : Option PhaseCode := none
  conductingEquipment : Reference := .empty
  connectivityNode : Reference := .empty
  topologicalNode : Reference := .empty

/-! ## Conducting equipment -/

/-- A busbar: a conductor of negligible impedance. -/
structure BusbarSection where
  base : ObjectBase := {}
  identified : IdentifiedObject := {}
  aggregate : Option Bool := none
  equipmentContainer : Reference := .empty
  baseVoltage : Reference := .empty
  /-- The largest peak current of a short circuit, in A. -/
  ipMax : Option (Binary binary64) := none

/-- An AC line: its length in m and the positive sequence values of its impedance. -/
structure ACLineSegment where
  base : ObjectBase := {}
  identified : IdentifiedObject := {}
  aggregate : Option Bool := none
  equipmentContainer : Reference := .empty
  baseVoltage : Reference := .empty
  length : Option (Binary binary64) := none
  r : Option (Binary binary64) := none
  x : Option (Binary binary64) := none
  bch : Option (Binary binary64) := none
  gch : Option (Binary binary64) := none

/-! ## Operational limits -/

/-- The limits attached to a terminal or a piece of equipment. -/
structure OperationalLimitSet where
  base : ObjectBase := {}
  identified : IdentifiedObject := {}
  terminal : Reference := .empty
  equipment : Reference := .empty

/-- A current limit, in A. -/
structure CurrentLimit where
  base : ObjectBase := {}
  identified : IdentifiedObject := {}
  limitSet : Reference := .empty
  value : Option (Binary binary64) := none

/-! ## Bus-branch topology -/

structure TopologicalNode where
  base : ObjectBase := {}
  identified : IdentifiedObject := {}
  baseVoltage : Reference := .empty
  container : Reference := .empty
  /-- The inverse of a terminal's reference, which is not used. -/
  terminal : ReferenceSet := .empty

/-- An electrically connected part of the network. -/
structure TopologicalIsland where
  base : ObjectBase := {}
  identified : IdentifiedObject := {}
  angleRefNode : Reference := .empty
  nodes : ReferenceSet := .empty

/-! ## Tables -/

namespace RecordClass

def baseVoltage : RecordClass where
  name := "BaseVoltage"
  Record := BaseVoltage
  empty := {}
  base := ⟨(·.base), fun v o => { o with base := v }⟩
  table := ⟨"BaseVoltage", [
    identifiedObjectAttributes ⟨(·.identified), fun v o => { o with identified := v }⟩,
    [ .primitive "BaseVoltage.nominalVoltage" .float (fun o => floatText o.nominalVoltage)
        (Borrow.run ⟨(·.nominalVoltage), fun v o => { o with nominalVoltage := v }⟩ ∘
          setFloat) ]]⟩

def substation : RecordClass where
  name := "Substation"
  Record := Substation
  empty := {}
  base := ⟨(·.base), fun v o => { o with base := v }⟩
  table := ⟨"Substation", [
    identifiedObjectAttributes ⟨(·.identified), fun v o => { o with identified := v }⟩,
    [ .reference "Substation.Region" ["SubGeographicalRegion"] (·.region)
        ⟨(·.region), fun v o => { o with region := v }⟩ ]]⟩

def voltageLevel : RecordClass where
  name := "VoltageLevel"
  Record := VoltageLevel
  empty := {}
  base := ⟨(·.base), fun v o => { o with base := v }⟩
  table := ⟨"VoltageLevel", [
    identifiedObjectAttributes ⟨(·.identified), fun v o => { o with identified := v }⟩,
    [ .primitive "VoltageLevel.highVoltageLimit" .float (fun o => floatText o.highVoltageLimit)
        (Borrow.run ⟨(·.highVoltageLimit), fun v o => { o with highVoltageLimit := v }⟩ ∘
          setFloat),
      .primitive "VoltageLevel.lowVoltageLimit" .float (fun o => floatText o.lowVoltageLimit)
        (Borrow.run ⟨(·.lowVoltageLimit), fun v o => { o with lowVoltageLimit := v }⟩ ∘
          setFloat),
      .reference "VoltageLevel.Substation" ["Substation"] (·.substation)
        ⟨(·.substation), fun v o => { o with substation := v }⟩,
      .reference "VoltageLevel.BaseVoltage" ["BaseVoltage"] (·.baseVoltage)
        ⟨(·.baseVoltage), fun v o => { o with baseVoltage := v }⟩ ]]⟩

def connectivityNode : RecordClass where
  name := "ConnectivityNode"
  Record := ConnectivityNode
  empty := {}
  base := ⟨(·.base), fun v o => { o with base := v }⟩
  table := ⟨"ConnectivityNode", [
    identifiedObjectAttributes ⟨(·.identified), fun v o => { o with identified := v }⟩,
    [ .reference "ConnectivityNode.ConnectivityNodeContainer" ["VoltageLevel", "Substation"]
        (·.container) ⟨(·.container), fun v o => { o with container := v }⟩,
      (Attribute.referenceSet "ConnectivityNode.Terminals" ["Terminal"] (·.terminals)
        ⟨(·.terminals), fun v o => { o with terminals := v }⟩).unused ]]⟩

def terminal : RecordClass where
  name := "Terminal"
  Record := Terminal
  empty := {}
  base := ⟨(·.base), fun v o => { o with base := v }⟩
  table := ⟨"Terminal", [
    identifiedObjectAttributes ⟨(·.identified), fun v o => { o with identified := v }⟩,
    [ .primitive "ACDCTerminal.sequenceNumber" .integer (fun o => integerText o.sequenceNumber)
        (Borrow.run ⟨(·.sequenceNumber), fun v o => { o with sequenceNumber := v }⟩ ∘
          setInteger),
      .primitive "ACDCTerminal.connected" .boolean (fun o => booleanText o.connected)
        (Borrow.run ⟨(·.connected), fun v o => { o with connected := v }⟩ ∘ setBoolean) ],
    [ .phaseCode "Terminal.phases" (fun o => phaseCodeText o.phases)
        (Borrow.run ⟨(·.phases), fun v o => { o with phases := v }⟩ ∘ setPhaseCode),
      .reference "Terminal.ConductingEquipment" ["ACLineSegment", "BusbarSection"]
        (·.conductingEquipment)
        ⟨(·.conductingEquipment), fun v o => { o with conductingEquipment := v }⟩,
      .reference "Terminal.ConnectivityNode" ["ConnectivityNode"] (·.connectivityNode)
        ⟨(·.connectivityNode), fun v o => { o with connectivityNode := v }⟩,
      .reference "Terminal.TopologicalNode" ["TopologicalNode"] (·.topologicalNode)
        ⟨(·.topologicalNode), fun v o => { o with topologicalNode := v }⟩ ]]⟩

def busbarSection : RecordClass where
  name := "BusbarSection"
  Record := BusbarSection
  empty := {}
  base := ⟨(·.base), fun v o => { o with base := v }⟩
  table := ⟨"BusbarSection", [
    identifiedObjectAttributes ⟨(·.identified), fun v o => { o with identified := v }⟩,
    [ .primitive "Equipment.aggregate" .boolean (fun o => booleanText o.aggregate)
        (Borrow.run ⟨(·.aggregate), fun v o => { o with aggregate := v }⟩ ∘ setBoolean),
      .reference "Equipment.EquipmentContainer" ["VoltageLevel", "Substation"]
        (·.equipmentContainer)
        ⟨(·.equipmentContainer), fun v o => { o with equipmentContainer := v }⟩,
      .reference "ConductingEquipment.BaseVoltage" ["BaseVoltage"] (·.baseVoltage)
        ⟨(·.baseVoltage), fun v o => { o with baseVoltage := v }⟩ ],
    [ .primitive "BusbarSection.ipMax" .float (fun o => floatText o.ipMax)
        (Borrow.run ⟨(·.ipMax), fun v o => { o with ipMax := v }⟩ ∘ setFloat) ]]⟩

def acLineSegment : RecordClass where
  name := "ACLineSegment"
  Record := ACLineSegment
  empty := {}
  base := ⟨(·.base), fun v o => { o with base := v }⟩
  table := ⟨"ACLineSegment", [
    identifiedObjectAttributes ⟨(·.identified), fun v o => { o with identified := v }⟩,
    [ .primitive "Equipment.aggregate" .boolean (fun o => booleanText o.aggregate)
        (Borrow.run ⟨(·.aggregate), fun v o => { o with aggregate := v }⟩ ∘ setBoolean),
      .reference "Equipment.EquipmentContainer" [] (·.equipmentContainer)
        ⟨(·.equipmentContainer), fun v o => { o with equipmentContainer := v }⟩,
      .reference "ConductingEquipment.BaseVoltage" ["BaseVoltage"] (·.baseVoltage)
        ⟨(·.baseVoltage), fun v o => { o with baseVoltage := v }⟩,
      .primitive "Conductor.length" .float (fun o => floatText o.length)
        (Borrow.run ⟨(·.length), fun v o => { o with length := v }⟩ ∘ setFloat) ],
    [ .primitive "ACLineSegment.r" .float (fun o => floatText o.r)
        (Borrow.run ⟨(·.r), fun v o => { o with r := v }⟩ ∘ setFloat),
      .primitive "ACLineSegment.x" .float (fun o => floatText o.x)
        (Borrow.run ⟨(·.x), fun v o => { o with x := v }⟩ ∘ setFloat),
      .primitive "ACLineSegment.bch" .float (fun o => floatText o.bch)
        (Borrow.run ⟨(·.bch), fun v o => { o with bch := v }⟩ ∘ setFloat),
      .primitive "ACLineSegment.gch" .float (fun o => floatText o.gch)
        (Borrow.run ⟨(·.gch), fun v o => { o with gch := v }⟩ ∘ setFloat) ]]⟩

def operationalLimitSet : RecordClass where
  name := "OperationalLimitSet"
  Record := OperationalLimitSet
  empty := {}
  base := ⟨(·.base), fun v o => { o with base := v }⟩
  table := ⟨"OperationalLimitSet", [
    identifiedObjectAttributes ⟨(·.identified), fun v o => { o with identified := v }⟩,
    [ .reference "OperationalLimitSet.Terminal" ["Terminal"] (·.terminal)
        ⟨(·.terminal), fun v o => { o with terminal := v }⟩,
      .reference "OperationalLimitSet.Equipment" ["ACLineSegment", "BusbarSection"] (·.equipment)
        ⟨(·.equipment), fun v o => { o with equipment := v }⟩ ]]⟩

def currentLimit : RecordClass where
  name := "CurrentLimit"
  Record := CurrentLimit
  empty := {}
  base := ⟨(·.base), fun v o => { o with base := v }⟩
  table := ⟨"CurrentLimit", [
    identifiedObjectAttributes ⟨(·.identified), fun v o => { o with identified := v }⟩,
    [ .reference "OperationalLimit.OperationalLimitSet" ["OperationalLimitSet"] (·.limitSet)
        ⟨(·.limitSet), fun v o => { o with limitSet := v }⟩ ],
    [ .primitive "CurrentLimit.value" .float (fun o => floatText o.value)
        (Borrow.run ⟨(·.value), fun v o => { o with value := v }⟩ ∘ setFloat) ]]⟩

def topologicalNode : RecordClass where
  name := "TopologicalNode"
  Record := TopologicalNode
  empty := {}
  base := ⟨(·.base), fun v o => { o with base := v }⟩
  table := ⟨"TopologicalNode", [
    identifiedObjectAttributes ⟨(·.identified), fun v o => { o with identified := v }⟩,
    [ .reference "TopologicalNode.BaseVoltage" ["BaseVoltage"] (·.baseVoltage)
        ⟨(·.baseVoltage), fun v o => { o with baseVoltage := v }⟩,
      .reference "TopologicalNode.ConnectivityNodeContainer" ["VoltageLevel", "Substation"]
        (·.container) ⟨(·.container), fun v o => { o with container := v }⟩,
      (Attribute.referenceSet "TopologicalNode.Terminal" ["Terminal"] (·.terminal)
        ⟨(·.terminal), fun v o => { o with terminal := v }⟩).unused ]]⟩

def topologicalIsland : RecordClass where
  name := "TopologicalIsland"
  Record := TopologicalIsland
  empty := {}
  base := ⟨(·.base), fun v o => { o with base := v }⟩
  table := ⟨"TopologicalIsland", [
    identifiedObjectAttributes ⟨(·.identified), fun v o => { o with identified := v }⟩,
    [ .reference "TopologicalIsland.AngleRefTopologicalNode" ["TopologicalNode"] (·.angleRefNode)
        ⟨(·.angleRefNode), fun v o => { o with angleRefNode := v }⟩,
      .referenceSet "TopologicalIsland.TopologicalNodes" ["TopologicalNode"] (·.nodes)
        ⟨(·.nodes), fun v o => { o with nodes := v }⟩ ]]⟩

/-- All standard classes. -/
def standard : List RecordClass :=
  [baseVoltage, substation, voltageLevel, connectivityNode, terminal, busbarSection,
    acLineSegment, operationalLimitSet, currentLimit, topologicalNode, topologicalIsland]

end RecordClass

end CimStore
