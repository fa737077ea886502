import L1Agent.Actions.Policy
import L1Agent.Sop.Validator
import L1Agent.Library.PyText

/-! # The policy document (`actions/policy.py`, `parse_rules`)

The rules of a tenant are a JSON document.  Each part of it is read on its own: what is wrong is
put on a list of problems, and the document is refused with all of them at the end.  Nothing else
should end the reading, but looking a level up in the set of known levels needs its hash, and a
list or an object has none.

What a part of the document may be is a structure (`WindowFits`, `HoursFit`, `ApprovalFits`,
`TargetFits`, and `WellFormed` of the whole), and so are the bounds that what is read of it keeps
(`TargetBounds`, and `Ranges` of the whole).
-/
namespace L1Agent
namespace Parsing

/-- What ends the reading. -/
inductive Exn where
  /-- `PolicyError` -/
  | policyError (problems : List String)
  | typeError (message : String)
  deriving DecidableEq, Repr

/-- What the language prints and reads. -/
structure Reader where
  builtins : Builtins
  /-- `datetime.fromisoformat`: `none` is a ValueError, and a time that has no offset is no
  instant. -/
  fromisoformat : String → Option (Option Int)

/-- What a part of the document is read as, after the problems in it. -/
abbrev Part (α : Type) := List String × α

def maxRules : Nat := 200

/-- `CHANNELS` -/
def knownChannels : List String := [channelUi, channelServicenow]

/-- `_TOP_LEVEL` -/
def topLevel : List String :=
  ["sop_autonomy", "raise_tier", "automatic", "freeze", "hours", "rate", "approval"]

/-! ## Texts -/

/-- `[01]\d|2[0-3]`: a digit is one of any script. -/
def hourOf (a b : Char) : Option Nat :=
  if a ∈ ['0', '1'] ∨ a = '2' ∧ b ∈ ['0', '1', '2', '3'] then do
    return 10 * (← PyText.decimal? a) + (← PyText.decimal? b)
  else none

/-- `[0-5]\d` -/
def minuteOf (c d : Char) : Option Nat :=
  if c ∈ ['0', '1', '2', '3', '4', '5'] then do
    return 10 * (← PyText.decimal? c) + (← PyText.decimal? d)
  else none

/-- `_TIME_RE`, without its end. -/
def clock : List Char → Option Nat
  | [a, b, ':', c, d] => do return (← hourOf a b) * 60 + (← minuteOf c d)
  | _ => none

/-- The pattern's `$` also matches before a line feed at the end. -/
def beforeEnd (text : String) : List Char :=
  if text.toList.getLast? = some '\n' then text.toList.dropLast else text.toList

/-- `_minutes` -/
def minutesOf : Option Json → Option Nat
  | some (.str text) => clock (beforeEnd text)
  | _ => none

/-- `[0-9a-f]{64}` -/
def isDigest (cs : List Char) : Bool :=
  cs.length = 64 && cs.all fun c => ('0' ≤ c && c ≤ '9') || ('a' ≤ c && c ≤ 'f')

/-- `_HASH_RE.match` -/
def matchesHash (text : String) : Bool := isDigest (beforeEnd text)

/-- `text.replace("Z", "+00:00")` -/
def withOffset (text : String) : String :=
  String.ofList (text.toList.flatMap fun c => if c = 'Z' then "+00:00".toList else [c])

/-- `_when` -/
def when (reader : Reader) : Option Json → Option Int
  | some (.str text) => (reader.fromisoformat (withOffset text)).join
  | _ => none

/-- A name or a pattern of `_strings`. -/
def nameOf : Json → Option String
  | .str s => if s ≠ "" ∧ s.length ≤ 200 then some s else none
  | _ => none

/-- `_strings` -/
def strings : Option Json → Option (List String)
  | some (.arr []) => none
  | some (.arr items) => items.mapM nameOf
  | _ => none

/-- `[A-Za-z0-9 ._\-]` -/
def groupChar (c : Char) : Bool :=
  c.isAlphanum || c == ' ' || c == '.' || c == '_' || c == '-'

/-! ## The parts -/

/-- The problems of a loop, and what it appended. -/
def gather {α : Type} : List (Except String α) → Part (List α)
  | [] => ([], [])
  | .error problem :: rest => (problem :: (gather rest).1, (gather rest).2)
  | .ok found :: rest => ((gather rest).1, found :: (gather rest).2)

/-- A list of at most 200 items, read one by one with their numbers. -/
def readItems {α : Type} (problem : String) (read : Nat → Json → Except String α) :
    Json → Part (List α)
  | .arr items =>
    if items.length ≤ maxRules then gather (items.zipIdx.map fun item => read item.2 item.1)
    else ([problem], [])
  | _ => ([problem], [])

/-- `isinstance(item, dict) and set(item) <= known` -/
def holdsOnly (known : List String) (item : Json) : Bool :=
  item.isObj && item.keys.all fun key => key ∈ known

/-- A member of an enumeration by its value. -/
def autonomyOf (value : String) : Option Autonomy :=
  [Autonomy.shadow, .recommend, .approval, .automatic].find? fun a => a.value = value

/-- `level in {a.value for a in Autonomy}`, and the level: a set is searched by the hash. -/
def levelOf : Option Json → Except Exn (Option Autonomy)
  | some (.str value) => .ok (autonomyOf value)
  | some (.arr _) => .error (.typeError "unhashable type: 'list'")
  | some (.obj _) => .error (.typeError "unhashable type: 'dict'")
  | _ => .ok none

/-- An entry of `sop_autonomy`. -/
def sopEntry (reader : Reader) (sopId : String) (entry : Json) :
    Except Exn (Except String (String × Autonomy × Json)) :=
  let ok := holdsOnly ["level", "content_hash"] entry
  let level := if ok then entry.get? "level" else none
  let digest := if ok then entry.getD "content_hash" (.str "") else .str ""
  let problem := "sop_autonomy['" ++ sopId ++ "'] needs a level and the content_hash of the version"
  (levelOf level).map fun found => match found with
    | some level =>
      if matchesHash (reader.builtins.str digest) then .ok (sopId, level, digest)
      else .error problem
    | none => .error problem

/-- The loop over `sop_autonomy`. -/
def sopEntries (reader : Reader) :
    List (String × Json) → Except Exn (List (Except String (String × Autonomy × Json)))
  | [] => .ok []
  | (sopId, entry) :: rest => do
    let found ← sopEntry reader sopId entry
    let others ← sopEntries reader rest
    return found :: others

def sopAutonomy (reader : Reader) (data : Json) :
    Except Exn (Part (List (String × Autonomy × Json))) :=
  match data.getD "sop_autonomy" (.obj []) with
  | .obj raw =>
    if raw.length ≤ maxRules then do return gather (← sopEntries reader raw)
    else .ok (["sop_autonomy must be an object"], [])
  | _ => .ok (["sop_autonomy must be an object"], [])

/-- A rule of `_target_rules`. -/
def targetRule (label : String) (withSop : Bool) (item : Json) : Except String TargetRule :=
  let allowed := ["capability", "targets"] ++ if withSop then ["sop_id"] else []
  let sopId := item.getD "sop_id" (.str "")
  if !holdsOnly allowed item then
    .error (label ++ " may hold only " ++
      if withSop then "['capability', 'sop_id', 'targets']" else "['capability', 'targets']")
  else match item.get? "capability" with
    | some (.str capability) =>
      if capability = "" then .error (label ++ ".capability is required")
      else match strings (item.get? "targets"), withSop, sopId with
        | none, _, _ => .error (label ++ ".targets must be a non-empty list of names or patterns")
        | some targets, false, _ => .ok { capability, targets }
        | some targets, true, .str sopId =>
          -- An automatic rule names the SOP: a capability is never automatic on its own.
          if sopId = "" then .error (label ++ ".sop_id is required")
          else .ok { capability, targets, sopId }
        | some _, true, _ => .error (label ++ ".sop_id is required")
    | _ => .error (label ++ ".capability is required")

/-- `_target_rules` -/
def targetRules (name : String) (value : Json) (withSop : Bool) : Part (List TargetRule) :=
  readItems s!"{name} must be a list of at most {maxRules} rules"
    (fun i => targetRule s!"{name}[{i}]" withSop) value

/-- A window of `freeze`. -/
def freezeWindow (reader : Reader) (label : String) (item : Json) : Except String Freeze :=
  let ok := holdsOnly ["start", "end", "reason"] item
  match if ok then when reader (item.get? "start") else none,
      if ok then when reader (item.get? "end") else none with
  | some start, some stop =>
    if start < stop then
      let reason := reader.builtins.str (item.getD "reason" (.str ""))
      .ok { start, stop, reason := String.ofList (reason.toList.take 200) }
    else .error (label ++ " needs start and end as ISO times with an offset")
  | _, _ => .error (label ++ " needs start and end as ISO times with an offset")

def freeze (reader : Reader) (data : Json) : Part (List Freeze) :=
  readItems "freeze must be a list" (fun i => freezeWindow reader s!"freeze[{i}]")
    (data.getD "freeze" (.arr []))

/-- A day of `hours`. -/
def dayOf : Json → Option Nat
  | .int d => if 0 ≤ d ∧ d ≤ 6 then some d.toNat else none
  | _ => none

/-- `days`, where they are a list that is not empty. -/
def daysOf : Json → Option (List Nat)
  | .arr [] => none
  | .arr days => days.mapM dayOf
  | _ => none

def hoursProblem : String :=
  "hours needs days (0 to 6, Monday is 0) and start and end as HH:MM"

def hours (data : Json) : Part (Option Hours) :=
  match data.get? "hours" with
  | none => ([], none)
  | some item =>
    let ok := holdsOnly ["days", "start", "end"] item
    let days := item.getD "days" (.arr ((List.range 7).map fun d : Nat => .int d))
    match if ok then daysOf days else none, if ok then minutesOf (item.get? "start") else none,
        if ok then minutesOf (item.get? "end") else none with
    | some days, some start, some stop =>
      if start = stop then ([hoursProblem], none)
      -- `tuple(sorted(set(days)))`
      else ([], some { days := days.dedup.insertionSort (· ≤ ·), start, stop })
    | _, _, _ => ([hoursProblem], none)

/-- `whole` -/
def whole (part : Json) (key : String) (default low high : Nat) : Part Nat :=
  match part.getD key (.int default) with
  | .int n =>
    if (low : Int) ≤ n ∧ n ≤ high then ([], n.toNat)
    else ([s!"{key} must be a whole number from {low} to {high}"], default)
  | _ => ([s!"{key} must be a whole number from {low} to {high}"], default)

/-- `rate` and `approval`: an object with known keys, or the empty one. -/
def openPart (data : Json) (name : String) (known : List String) (problem : String) : Part Json :=
  let value := data.getD name (.obj [])
  if holdsOnly known value then ([], value) else ([problem], .obj [])

def rate (data : Json) : Part Json :=
  openPart data "rate" ["max_actions", "per_minutes"]
    "rate may hold only max_actions and per_minutes"

def approval (data : Json) : Part Json :=
  openPart data "approval"
    ["ttl_minutes", "execute_within_minutes", "channels", "servicenow_group"]
    ("approval may hold only " ++
      "['channels', 'execute_within_minutes', 'servicenow_group', 'ttl_minutes']")

/-- A channel that is known. -/
def channelOf : Json → Option String
  | .str s => if s ∈ knownChannels then some s else none
  | _ => none

def channels (part : Json) : Part (List String) :=
  let bad := (["approval.channels must be a list drawn from ['ui', 'servicenow']"], [channelUi])
  match part.getD "channels" (.arr [.str channelUi]) with
  | .arr [] => bad
  | .arr items => match items.mapM channelOf with
    | some found => if found.Nodup then ([], found) else bad
    | none => bad
  | _ => bad

def servicenowGroup (part : Json) : Part String :=
  let bad :=
    (["approval.servicenow_group may hold letters, digits, spaces and . _ -"], "")
  match part.getD "servicenow_group" (.str "") with
  | .str group => if group.length ≤ 100 ∧ group.toList.all groupChar then ([], group) else bad
  | _ => bad

/-- The group that the channels need. -/
def groupProblems (part : Json) : List String :=
  if channelServicenow ∈ (channels part).2 ∧ (servicenowGroup part).2 = "" then
    ["approval.servicenow_group is required for the servicenow channel"] else []

/-- The problems of a document whose levels have been read, in the order in which they are
found. -/
def problems (reader : Reader) (data : Json) (levels : Part (List (String × Autonomy × Json))) :
    List String :=
  (extraKeys data.keys topLevel).map (fun key => "unknown rule '" ++ key ++ "'") ++
  levels.1 ++
  (targetRules "raise_tier" (data.getD "raise_tier" (.arr [])) false).1 ++
  (targetRules "automatic" (data.getD "automatic" (.arr [])) true).1 ++
  (freeze reader data).1 ++
  (hours data).1 ++
  (rate data).1 ++
  (whole (rate data).2 "max_actions" 0 0 10000).1 ++
  (whole (rate data).2 "per_minutes" 60 1 (24 * 60)).1 ++
  (approval data).1 ++
  (whole (approval data).2 "ttl_minutes" 60 1 (7 * 24 * 60)).1 ++
  (whole (approval data).2 "execute_within_minutes" 15 1 (24 * 60)).1 ++
  (channels (approval data).2).1 ++
  (servicenowGroup (approval data).2).1 ++
  groupProblems (approval data).2

/-- What is found in it. -/
def found (reader : Reader) (data : Json) (levels : Part (List (String × Autonomy × Json))) :
    Rules where
  sopAutonomy := levels.2
  raiseTier := (targetRules "raise_tier" (data.getD "raise_tier" (.arr [])) false).2
  automatic := (targetRules "automatic" (data.getD "automatic" (.arr [])) true).2
  freeze := (freeze reader data).2
  hours := (hours data).2
  rateMax := (whole (rate data).2 "max_actions" 0 0 10000).2
  rateMinutes := (whole (rate data).2 "per_minutes" 60 1 (24 * 60)).2
  approvalTtlMinutes := (whole (approval data).2 "ttl_minutes" 60 1 (7 * 24 * 60)).2
  executeWithinMinutes := (whole (approval data).2 "execute_within_minutes" 15 1 (24 * 60)).2
  channels := (channels (approval data).2).2
  servicenowGroup := (servicenowGroup (approval data).2).2

/-- The end of `parse_rules`. -/
def readRules (reader : Reader) (data : Json) (levels : Part (List (String × Autonomy × Json))) :
    Except Exn Rules :=
  if problems reader data levels = [] then .ok (found reader data levels)
  else .error (.policyError (problems reader data levels))

/-- `parse_rules` -/
def parseRules (reader : Reader) : Json → Except Exn Rules
  | .null | .obj [] => .ok {}
  | .obj fields => do readRules reader (.obj fields) (← sopAutonomy reader (.obj fields))
  | _ => .error (.policyError ["rules must be an object"])

/-! ## What a document may say -/

/-- A rule of `raise_tier`, or one of `automatic`, which names its SOP. -/
structure TargetFits (withSop : Bool) (item : Json) : Prop where
  keys : holdsOnly (["capability", "targets"] ++ if withSop then ["sop_id"] else []) item = true
  capability : ∃ name, item.get? "capability" = some (.str name) ∧ name ≠ ""
  targets : ∃ names : List String, item.get? "targets" = some (.arr (names.map .str)) ∧
    names ≠ [] ∧ ∀ name ∈ names, name ≠ "" ∧ name.length ≤ 200
  sopId : withSop = true → ∃ sopId, item.get? "sop_id" = some (.str sopId) ∧ sopId ≠ ""

/-- An entry of `sop_autonomy`: the digest is one as far as its text can tell. -/
structure EntryFits (reader : Reader) (entry : Json) : Prop where
  keys : holdsOnly ["level", "content_hash"] entry = true
  level : ∃ level : Autonomy, entry.get? "level" = some (.str level.value)
  digest : matchesHash (reader.builtins.str (entry.getD "content_hash" (.str ""))) = true

/-- A window of `freeze`. -/
structure WindowFits (reader : Reader) (item : Json) : Prop where
  keys : holdsOnly ["start", "end", "reason"] item = true
  order : ∃ start stop, when reader (item.get? "start") = some start ∧
    when reader (item.get? "end") = some stop ∧ start < stop

/-- The hours. -/
structure HoursFit (item : Json) : Prop where
  keys : holdsOnly ["days", "start", "end"] item = true
  days : ∃ days : List Nat, item.getD "days" (.arr ((List.range 7).map fun d : Nat => .int d)) =
    .arr (days.map fun d : Nat => .int d) ∧ days ≠ [] ∧ ∀ d ∈ days, d ≤ 6
  times : ∃ start stop, minutesOf (item.get? "start") = some start ∧
    minutesOf (item.get? "end") = some stop ∧ start ≠ stop

/-- A whole number between its bounds, or none. -/
def WholeFits (part : Json) (key : String) (default low high : Nat) : Prop :=
  ∃ n : Nat, part.getD key (.int default) = .int n ∧ low ≤ n ∧ n ≤ high

/-- A list of at most 200 items, each of which fits. -/
def ListFits (value : Json) (Fits : Json → Prop) : Prop :=
  ∃ items, value = .arr items ∧ items.length ≤ maxRules ∧ ∀ item ∈ items, Fits item

/-- The approval. -/
structure ApprovalFits (part : Json) : Prop where
  keys : holdsOnly ["ttl_minutes", "execute_within_minutes", "channels", "servicenow_group"] part =
    true
  ttl : WholeFits part "ttl_minutes" 60 1 (7 * 24 * 60)
  within : WholeFits part "execute_within_minutes" 15 1 (24 * 60)
  channels : ∃ names : List String,
    part.getD "channels" (.arr [.str channelUi]) = .arr (names.map .str) ∧ names ≠ [] ∧
      (∀ name ∈ names, name ∈ knownChannels) ∧ names.Nodup ∧
      (channelServicenow ∈ names → part.getD "servicenow_group" (.str "") ≠ .str "")
  group : ∃ group, part.getD "servicenow_group" (.str "") = .str group ∧ group.length ≤ 100 ∧
    group.toList.all groupChar = true

/-- Every part of the document is as it should be, but for the type of a digest. -/
structure WellFormed (reader : Reader) (data : Json) : Prop where
  known : ∀ key ∈ data.keys, key ∈ topLevel
  sopAutonomy : ∃ raw, data.getD "sop_autonomy" (.obj []) = .obj raw ∧ raw.length ≤ maxRules ∧
    ∀ entry ∈ raw, EntryFits reader entry.2
  raiseTier : ListFits (data.getD "raise_tier" (.arr [])) (TargetFits false)
  automatic : ListFits (data.getD "automatic" (.arr [])) (TargetFits true)
  freeze : ListFits (data.getD "freeze" (.arr [])) (WindowFits reader)
  hours : ∀ item, data.get? "hours" = some item → HoursFit item
  rateKeys : holdsOnly ["max_actions", "per_minutes"] (data.getD "rate" (.obj [])) = true
  rateMax : WholeFits (data.getD "rate" (.obj [])) "max_actions" 0 0 10000
  rateMinutes : WholeFits (data.getD "rate" (.obj [])) "per_minutes" 60 1 (24 * 60)
  approval : ApprovalFits (data.getD "approval" (.obj []))

/-! ## What rules are held to -/

/-- A rule about targets. -/
structure TargetBounds (withSop : Bool) (rule : TargetRule) : Prop where
  capability : rule.capability ≠ ""
  targets : rule.targets ≠ [] ∧ ∀ name ∈ rule.targets, name ≠ "" ∧ name.length ≤ 200
  sopId : withSop = true → rule.sopId ≠ ""

/-- The bounds of everything but the digests. -/
structure Ranges (rules : Rules) : Prop where
  entries : rules.sopAutonomy.length ≤ maxRules
  raiseTier : rules.raiseTier.length ≤ maxRules ∧ ∀ r ∈ rules.raiseTier, TargetBounds false r
  automatic : rules.automatic.length ≤ maxRules ∧ ∀ r ∈ rules.automatic, TargetBounds true r
  freeze : rules.freeze.length ≤ maxRules ∧
    ∀ w ∈ rules.freeze, w.start < w.stop ∧ w.reason.length ≤ 200
  hours : ∀ h, rules.hours = some h → h.days ≠ [] ∧ (∀ d ∈ h.days, d ≤ 6) ∧
    h.start < 24 * 60 ∧ h.stop < 24 * 60 ∧ h.start ≠ h.stop
  rate : rules.rateMax ≤ 10000 ∧ 1 ≤ rules.rateMinutes ∧ rules.rateMinutes ≤ 24 * 60
  approval : 1 ≤ rules.approvalTtlMinutes ∧ rules.approvalTtlMinutes ≤ 7 * 24 * 60 ∧
    1 ≤ rules.executeWithinMinutes ∧ rules.executeWithinMinutes ≤ 24 * 60
  channels : rules.channels ≠ [] ∧ (∀ c ∈ rules.channels, c ∈ knownChannels) ∧
    rules.channels.Nodup ∧ (channelServicenow ∈ rules.channels → rules.servicenowGroup ≠ "")
  group : rules.servicenowGroup.length ≤ 100 ∧ rules.servicenowGroup.toList.all groupChar = true

/-- A digest is a text of 64 hexadecimal digits. -/
def IsDigest (digest : Json) : Prop := ∃ text, digest = .str text ∧ isDigest text.toList = true

/-- Every bound that is documented. -/
structure Bounds (rules : Rules) : Prop extends Ranges rules where
  digests : ∀ entry ∈ rules.sopAutonomy, IsDigest entry.2.2

end Parsing
end L1Agent
