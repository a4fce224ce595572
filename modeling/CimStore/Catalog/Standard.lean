import CimStore.Record.Standard

/-!
# The standard classes

What the standard classes declare, as the tables of their records have it.
-/

namespace CimStore.CimClass

def baseVoltage : CimClass := RecordClass.baseVoltage.cls

def substation : CimClass := RecordClass.substation.cls

def voltageLevel : CimClass := RecordClass.voltageLevel.cls

def connectivityNode : CimClass := RecordClass.connectivityNode.cls

def terminal : CimClass := RecordClass.terminal.cls

def busbarSection : CimClass := RecordClass.busbarSection.cls

def acLineSegment : CimClass := RecordClass.acLineSegment.cls

def operationalLimitSet : CimClass := RecordClass.operationalLimitSet.cls

def currentLimit : CimClass := RecordClass.currentLimit.cls

def topologicalNode : CimClass := RecordClass.topologicalNode.cls

def topologicalIsland : CimClass := RecordClass.topologicalIsland.cls

/-- All standard classes. -/
def standard : List CimClass := RecordClass.standard.map RecordClass.cls

end CimStore.CimClass
