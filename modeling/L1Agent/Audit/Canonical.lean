import L1Agent.Actions.Service
import L1Agent.Audit.Log

/-! # The canonical form

The audit log, the runner's protocol and the grants each have their own encoder.  They write the
same text for a value, from which the value is read back; two values have the same text exactly
when they are the same up to the order of keys (`canonical_determines`).  So a digest is of one
content only, as far as the hash function is.

`Determines` lists what comes of it: a value is read back from its text, an event's hash is of all
that it says (`eventHash_eq_iff`), a call digest of one call (`callDigest_eq_iff`), and an action
hash of one action (`actionHash_eq_iff`).
-/
namespace L1Agent

/-- `canonical`, of `runner/protocol.py`. -/
def Runner.canonical (numbers : Json.Numbers) (value : Json) : String :=
  Json.dumps numbers
    { sortKeys := true, itemSeparator := ",", keySeparator := ":", ensureAscii := true } value

/-- The encoder of `call_digest`, of `connectors/sdk/grant.py`. -/
def grantText (numbers : Json.Numbers) (value : Json) : String :=
  Json.dumps numbers
    { sortKeys := true, itemSeparator := ",", keySeparator := ":", ensureAscii := true } value

namespace Audit
open Json

variable {tools : Tools}

theorem canonicalOptions_compact : canonicalOptions.Compact := ⟨rfl, rfl⟩

/-- The text of a value that is already in order. -/
theorem canonical_canonical (v : Json) : canonical tools v.canonical = canonical tools v := by
  show String.ofList (render _ _ v.canonical.canonical) = String.ofList (render _ _ v.canonical)
  rw [Json.canonical_canonical]

theorem canonical_eq_iff (hnumbers : tools.numbers.Faithful) {v w : Json}
    (hv : Proper tools.numbers.has v) (hw : Proper tools.numbers.has w) :
    canonical tools v = canonical tools w ↔ Same v w :=
  dumps_injective hnumbers canonicalOptions_compact rfl hv hw

/-- Digests of equal contents. -/
theorem digest_eq_iff (hnumbers : tools.numbers.Faithful)
    (hsha : Function.Injective tools.sha256) {v w : Json} (hv : Proper tools.numbers.has v)
    (hw : Proper tools.numbers.has w) : digest tools v = digest tools w ↔ Same v w := by
  rw [← canonical_eq_iff hnumbers hv hw]
  exact hsha.eq_iff

/-! ## Events -/

theorem proper_eventBody {seq : Int} (hseq : tools.numbers.has (.int seq))
    (tenantId occurredAt actorType actorId correlationId eventType payload prevHash : String) :
    Proper tools.numbers.has (eventBody tenantId seq occurredAt actorType actorId correlationId
      eventType payload prevHash) :=
  ⟨by simp, trivial, hseq, trivial, trivial, trivial, trivial, trivial, trivial, trivial, trivial⟩

/-- **An event's hash is of all that it says.** -/
theorem eventHash_eq_iff (hnumbers : tools.numbers.Faithful)
    (hsha : Function.Injective tools.sha256)
    {tenantId occurredAt actorType actorId correlationId eventType payload prevHash : String}
    {tenantId' occurredAt' actorType' actorId' correlationId' eventType' payload' prevHash' :
      String} {seq seq' : Int} (hseq : tools.numbers.has (.int seq))
    (hseq' : tools.numbers.has (.int seq')) :
    eventHash tools tenantId seq occurredAt actorType actorId correlationId eventType payload
        prevHash =
      eventHash tools tenantId' seq' occurredAt' actorType' actorId' correlationId' eventType'
        payload' prevHash' ↔
      tenantId = tenantId' ∧ seq = seq' ∧ occurredAt = occurredAt' ∧ actorType = actorType' ∧
        actorId = actorId' ∧ correlationId = correlationId' ∧ eventType = eventType' ∧
        payload = payload' ∧ prevHash = prevHash' := by
  refine (digest_eq_iff hnumbers hsha (proper_eventBody hseq ..) (proper_eventBody hseq' ..)).trans ?_
  simp [eventBody, Same, SameFields, List.lookup_cons]

/-- What an event's hash is of. -/
def Row.body (row : Row) : Json :=
  eventBody row.tenantId row.seq row.occurredAt row.actorType row.actorId row.correlationId
    row.eventType row.payload row.prevHash

/-! ## Calls and actions -/

/-- **A call digest is of one call.** -/
theorem callDigest_eq_iff (hnumbers : tools.numbers.Faithful)
    (hsha : Function.Injective tools.sha256) {capabilityId capabilityId' : String}
    {parameters parameters' : Json} (h : Proper tools.numbers.has parameters)
    (h' : Proper tools.numbers.has parameters') :
    callDigest (digest tools) capabilityId parameters =
      callDigest (digest tools) capabilityId' parameters' ↔
      capabilityId = capabilityId' ∧ Same parameters parameters' := by
  have hproper : ∀ {capabilityId : String} {parameters : Json},
      Proper tools.numbers.has parameters → Proper tools.numbers.has
        (.obj [("capability", .str capabilityId), ("parameters", parameters)]) :=
    fun h => ⟨by simp, trivial, h, trivial⟩
  have hdigest : ∀ v, digest tools v.canonical = digest tools v := fun v =>
    congrArg tools.sha256 (canonical_canonical v)
  unfold callDigest
  rw [hdigest, hdigest, digest_eq_iff hnumbers hsha (hproper h) (hproper h')]
  simp [Same, SameFields, List.lookup_cons]

/-- **An action hash is of one action.** -/
theorem actionHash_eq_iff (hnumbers : tools.numbers.Faithful)
    (hsha : Function.Injective tools.sha256) {site site' : Site} (hsite : site.sha = digest tools)
    (hsite' : site'.sha = digest tools) {incident incident' : Incident} {sop sop' : SOP}
    {capabilityId capabilityId' : String} {parameters parameters' : Json}
    (h : Proper tools.numbers.has parameters) (h' : Proper tools.numbers.has parameters') :
    actionHash site incident sop capabilityId parameters =
      actionHash site' incident' sop' capabilityId' parameters' ↔
      site.tenant = site'.tenant ∧ incident.sysId = incident'.sysId ∧ sop.sopId = sop'.sopId ∧
        sop.contentHash = sop'.contentHash ∧ capabilityId = capabilityId' ∧
        Same parameters parameters' := by
  have hproper : ∀ {tenant incident sop hash capabilityId : String} {parameters : Json},
      Proper tools.numbers.has parameters → Proper tools.numbers.has
        (.obj [("tenant", .str tenant), ("incident", .str incident), ("sop", .str sop),
          ("sop_sha256", .str hash), ("capability", .str capabilityId),
          ("parameters", parameters)]) :=
    fun h => ⟨by simp, trivial, trivial, trivial, trivial, trivial, h, trivial⟩
  have hdigest : ∀ v, digest tools v.canonical = digest tools v := fun v =>
    congrArg tools.sha256 (canonical_canonical v)
  unfold actionHash
  rw [hsite, hsite', hdigest, hdigest, digest_eq_iff hnumbers hsha (hproper h) (hproper h')]
  simp [Same, SameFields, List.lookup_cons]

/-! ## The whole of it -/

/-- **What the canonical form does.** -/
structure Determines (tools : Tools) : Prop where
  /-- It tells values apart that are not the same up to the order of keys, and no others. -/
  same : ∀ v w, Proper tools.numbers.has v → Proper tools.numbers.has w →
    (canonical tools v = canonical tools w ↔ Same v w)
  /-- It is ASCII, and the value is read back. -/
  read : ∀ v, Proper tools.numbers.has v → Ascii (canonical tools v).toList ∧
    ∃ w, loads tools.numbers (canonical tools v) = some w ∧ Same v w
  /-- The other encoders write the same. -/
  agree : ∀ v, Runner.canonical tools.numbers v = canonical tools v ∧
    grantText tools.numbers v = canonical tools v
  events : ∀ r s : Row, tools.numbers.has (.int r.seq) → tools.numbers.has (.int s.seq) →
    digest tools r.body = digest tools s.body → { r with hash := s.hash } = s
  calls : ∀ capabilityId capabilityId' parameters parameters',
    Proper tools.numbers.has parameters → Proper tools.numbers.has parameters' →
    callDigest (digest tools) capabilityId parameters =
      callDigest (digest tools) capabilityId' parameters' →
    capabilityId = capabilityId' ∧ Same parameters parameters'
  actions : ∀ (site site' : Site) (incident incident' : Incident) (sop sop' : SOP)
    (capabilityId capabilityId' : String) (parameters parameters' : Json),
    site.sha = digest tools → site'.sha = digest tools →
    Proper tools.numbers.has parameters → Proper tools.numbers.has parameters' →
    actionHash site incident sop capabilityId parameters =
      actionHash site' incident' sop' capabilityId' parameters' →
    site.tenant = site'.tenant ∧ incident.sysId = incident'.sysId ∧ sop.sopId = sop'.sopId ∧
      sop.contentHash = sop'.contentHash ∧ capabilityId = capabilityId' ∧
      Same parameters parameters'

/-- **The canonical form determines the value**, up to the order of keys. -/
theorem canonical_determines (tools : Tools) (hnumbers : tools.numbers.Faithful)
    (hsha : Function.Injective tools.sha256) : Determines tools where
  same v w hv hw := canonical_eq_iff hnumbers hv hw
  read v hv := by
    refine ⟨dumps_ascii hnumbers canonicalOptions_compact rfl hv, v.canonical,
      loads_dumps hnumbers canonicalOptions_compact hv, ?_⟩
    exact same_of_canonical (proper_canonical hv) (Json.canonical_canonical v).symm
  agree v := ⟨rfl, rfl⟩
  events r s hr hs h := by
    have hfields := (eventHash_eq_iff hnumbers hsha hr hs).mp h
    obtain ⟨tenantId, seq, occurredAt, actorType, actorId, correlationId, eventType, payload,
      prevHash, hash⟩ := r
    obtain ⟨htenant, hseq, hat, htype, hid, hcorrelation, hevent, hpayload, hprev⟩ := hfields
    obtain ⟨tenantId', seq', occurredAt', actorType', actorId', correlationId', eventType',
      payload', prevHash', hash'⟩ := s
    dsimp only at htenant hseq hat htype hid hcorrelation hevent hpayload hprev ⊢
    subst htenant hseq hat htype hid hcorrelation hevent hpayload hprev
    rfl
  calls _ _ _ _ hp hp' h := (callDigest_eq_iff hnumbers hsha hp hp').mp h
  actions _ _ _ _ _ _ _ _ _ _ hsite hsite' hp hp' h :=
    (actionHash_eq_iff hnumbers hsha hsite hsite' hp hp').mp h

/-- Libraries that print integers, and whose digests are the texts themselves. -/
def plainTools : Tools where
  numbers := integers
  builtins := ⟨fun _ => "", fun _ => none, fun _ => false⟩
  sha256 := id
  hmac key message := key ++ message
  redact := id

theorem canonical_determines_plain : Determines plainTools :=
  canonical_determines plainTools integers_faithful Function.injective_id

example : canonical plainTools (.obj [("b", .arr [.int 2, .null]), ("a", .str "é\n😀")]) =
    "\x7b\"a\":\"\\u00e9\\n\\ud83d\\ude00\",\"b\":[2,null]\x7d" := by
  decide +kernel

end Audit
end L1Agent
