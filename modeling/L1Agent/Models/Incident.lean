import L1Agent.Library.Json

/-! # Incidents (`models/incident.py`)

A ticket as the ITSM gives it, with the fields that the matcher, the parameters and the processor
read; where the ticket does not say, a field has its default.
-/
namespace L1Agent

/-- `Incident`. -/
structure Incident where
  sysId : String := ""
  number : String := ""
  shortDescription : String := ""
  description : String := ""
  category : String := ""
  subcategory : String := ""
  cmdbCi : String := ""
  assignmentGroup : String := ""
  priority : Int := 4
  state : Int := 1
  caller : String := ""
  createdOn : String := ""
  deriving DecidableEq

/-- `to_dict` -/
def Incident.toDict (i : Incident) : Json :=
  .obj [("sys_id", .str i.sysId), ("number", .str i.number),
    ("short_description", .str i.shortDescription), ("description", .str i.description),
    ("category", .str i.category), ("subcategory", .str i.subcategory),
    ("cmdb_ci", .str i.cmdbCi), ("assignment_group", .str i.assignmentGroup),
    ("priority", .int i.priority), ("state", .int i.state), ("caller", .str i.caller),
    ("created_on", .str i.createdOn)]

end L1Agent
