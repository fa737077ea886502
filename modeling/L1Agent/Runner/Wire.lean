import L1Agent.Audit.Canonical
import L1Agent.Runner.Agent
import Mathlib.Data.Bool.AllAny

/-! # A result on its way back (`runner/protocol.py`, `runner/agent.py`, `api/middleware.py`)

`result_to_wire` cuts the texts of a result by their characters, and the server takes a request by
its bytes.  Between the two a text is escaped: a character becomes up to twelve bytes.

`length_body` is the length of a body, character by character, and `result_comes_through` the
equivalence that follows.  Texts with nothing to escape always come through
(`plain_result_comes_through`); a screen of characters outside the basic plane does not
(`astral_result_dropped`).
-/
namespace L1Agent
namespace Runner
open Json

def maxRawOutput : Nat := 64 * 1024
def maxEvidence : Nat := 16 * 1024
def maxData : Nat := 96 * 1024
def maxError : Nat := 2000

/-- `MAX_BODY_BYTES`, of `api/security.py`. -/
def maxBodyBytes : Nat := 256 * 1024

section Wire
variable (numbers : Numbers)

/-- `text[:n]` -/
def cut (text : String) (n : Nat) : String := String.ofList (text.toList.take n)

/-- `result.data if isinstance(result.data, dict) else {}` -/
def dataOf (result : Result) : Json := if result.data.isObj then result.data else .obj []

/-- The fields of a result, once its data has been read again. -/
def wireOf (result : Result) (data : Json) : Json :=
  .obj [("success", .bool result.success), ("data", data),
    ("raw_output", .str (cut result.rawOutput maxRawOutput)),
    ("error", .str (cut result.error maxError)),
    ("evidence_snippet", .str (cut result.evidenceSnippet maxEvidence))]

/-- `result_to_wire` -/
def resultToWire (result : Result) : Except Exn Json :=
  if maxData < (canonical numbers (dataOf result)).toList.length then .error (.other "ValueError")
  else match loads numbers (canonical numbers (dataOf result)) with
    | some data => .ok (wireOf result data)
    | none => .error (.other "JSONDecodeError")

/-- What `_return` posts. -/
def payload (outcome : String) (result : Json) (nonce : String) : Json :=
  .obj [("outcome", .str outcome), ("result", result), ("nonce", .str nonce)]

/-- `protocol.canonical(payload).encode("ascii")`; `none` where it raises. -/
def bodyOf (payload : Json) : Option Literals.Bytes := Literals.ascii? (canonical numbers payload)

end Wire

/-- The parts of a body as they come in, after some bytes. -/
def receivedAll (maxBytes : Nat) : Nat → List Literals.Bytes → Bool
  | _, [] => true
  | received, part :: parts =>
    if maxBytes < received + part.length then false
    else receivedAll maxBytes (received + part.length) parts

/-- `BodyLimitMiddleware`: whether a request comes through, by its Content-Length, if it has one
(`none` where that is no number), and by the parts of its body. -/
def comesThrough (maxBytes : Nat) (declared : Option (Option Int))
    (parts : List Literals.Bytes) : Bool :=
  (match declared with
    | none => true
    | some none => false
    | some (some n) => n ≤ maxBytes) && receivedAll maxBytes 0 parts

theorem receivedAll_of_le {maxBytes : Nat} {parts : List Literals.Bytes} :
    ∀ {received : Nat}, received + parts.flatten.length ≤ maxBytes →
      receivedAll maxBytes received parts = true := by
  induction parts with
  | nil => exact fun _ => rfl
  | cons part parts ih =>
    intro received h
    rw [List.flatten_cons, List.length_append] at h
    rw [receivedAll, if_neg (by omega)]
    exact ih (by omega)

/-! ## The length of a body -/

/-- How long a text is, once it is escaped. -/
def escaped (text : String) : Nat := (text.toList.flatMap (escapeChar true)).length

theorem length_renderString (text : String) :
    (renderString true text).length = escaped text + 2 := by
  rw [renderString, List.length_cons, List.length_append]
  rfl

/-- A text of `[0-9a-f]` has nothing to escape. -/
theorem escaped_hex {text : String} (h : ∀ c ∈ text.toList, c ∈ "0123456789abcdef".toList) :
    escaped text = text.toList.length := by
  have hplain : ∀ c ∈ "0123456789abcdef".toList, escapeChar true c = [c] :=
    List.all_iff_forall_prop.mp (by decide)
  unfold escaped
  generalize text.toList = cs at h ⊢
  induction cs with
  | nil => rfl
  | cons c cs ih =>
    obtain ⟨hc, hcs⟩ := List.forall_mem_cons.mp h
    rw [List.flatMap_cons, hplain c (hc), List.length_append, ih hcs, List.length_singleton,
      List.length_cons]
    omega

theorem insertField_past {k key : String} (h : ¬ key ≤ k) (value v : Json)
    (fields : List (String × Json)) :
    insertField key value ((k, v) :: fields) = (k, v) :: insertField key value fields := by
  rw [insertField, if_neg h]

theorem insertField_head {k key : String} (h : key ≤ k) (value v : Json)
    (fields : List (String × Json)) :
    insertField key value ((k, v) :: fields) = (key, value) :: (k, v) :: fields := by
  rw [insertField, if_pos h]

/-- The fields of a result, in order. -/
theorem canonical_wire (success data raw error evidence : Json) :
    (Json.obj [("success", success), ("data", data), ("raw_output", raw), ("error", error),
      ("evidence_snippet", evidence)]).canonical =
    .obj [("data", data.canonical), ("error", error.canonical),
      ("evidence_snippet", evidence.canonical), ("raw_output", raw.canonical),
      ("success", success.canonical)] := by
  have h1 : ("error" : String) ≤ "evidence_snippet" := by decide +kernel
  have h2 : ¬ ("raw_output" : String) ≤ "error" := by decide +kernel
  have h3 : ¬ ("raw_output" : String) ≤ "evidence_snippet" := by decide +kernel
  have h4 : ("data" : String) ≤ "error" := by decide +kernel
  have h5 : ¬ ("success" : String) ≤ "data" := by decide +kernel
  have h6 : ¬ ("success" : String) ≤ "error" := by decide +kernel
  have h7 : ¬ ("success" : String) ≤ "evidence_snippet" := by decide +kernel
  have h8 : ¬ ("success" : String) ≤ "raw_output" := by decide +kernel
  simp only [Json.canonical, canonicalFields, insertField.eq_1, insertField_head h1,
    insertField_past h2, insertField_past h3, insertField_head h4, insertField_past h5,
    insertField_past h6, insertField_past h7, insertField_past h8]

/-- The fields of a payload, in order. -/
theorem payload_canonical (outcome nonce : String) (result : Json) :
    (payload outcome result nonce).canonical =
      .obj [("nonce", .str nonce), ("outcome", .str outcome), ("result", result.canonical)] := by
  have h1 : ¬ ("result" : String) ≤ "nonce" := by decide +kernel
  have h2 : ¬ ("outcome" : String) ≤ "nonce" := by decide +kernel
  have h3 : ("outcome" : String) ≤ "result" := by decide +kernel
  simp only [payload, Json.canonical, canonicalFields, insertField.eq_1, insertField_past h1,
    insertField_past h2, insertField_head h3]

/-- The length of the body's text, but for the texts that are escaped and the data. -/
def overhead : Nat := 138

/-- **How long a body is.** -/
theorem length_body {numbers : Numbers} {result : Result} {data : Json} {nonce : String}
    (hlength : nonce.toList.length = 32)
    (hhex : ∀ c ∈ nonce.toList, c ∈ "0123456789abcdef".toList) :
    (canonical numbers (payload "ok" (wireOf result data) nonce)).toList.length =
      overhead + (canonical numbers data).toList.length +
        escaped (cut result.error maxError) + escaped (cut result.evidenceSnippet maxEvidence) +
        escaped (cut result.rawOutput maxRawOutput) + if result.success then 4 else 5 := by
  have hnonce : escaped nonce = 32 := by rw [escaped_hex hhex, hlength]
  have hkeys : escaped "nonce" = 5 ∧ escaped "outcome" = 7 ∧ escaped "result" = 6 ∧
      escaped "data" = 4 ∧ escaped "error" = 5 ∧ escaped "evidence_snippet" = 16 ∧
      escaped "raw_output" = 10 ∧ escaped "success" = 7 ∧ escaped "ok" = 2 := by decide +kernel
  have hcomma : ",".toList.length = 1 ∧ ":".toList.length = 1 := by decide +kernel
  have hsuccess : ∀ b : Bool, (render numbers
      { sortKeys := true, itemSeparator := ",", keySeparator := ":", ensureAscii := true }
      (.bool b)).length = if b then 4 else 5 := by
    intro b
    cases b <;> rfl
  unfold canonical dumps
  rw [String.toList_ofList, String.toList_ofList, if_pos rfl, if_pos rfl, payload_canonical,
    wireOf, canonical_wire]
  simp only [Json.canonical, render.eq_6, render.eq_8, renderFields, renderMoreFields,
    List.length_cons, List.length_append, length_renderString, hsuccess, hnonce, hkeys, hcomma,
    List.length_nil, overhead]
  omega

theorem ascii?_of_ascii {text : String} (h : Ascii text.toList) :
    ∃ bytes, Literals.ascii? text = some bytes ∧ bytes.length = text.toList.length := by
  unfold Literals.ascii?
  generalize text.toList = cs at h ⊢
  induction cs with
  | nil => exact ⟨[], rfl, rfl⟩
  | cons c cs ih =>
    obtain ⟨bytes, hbytes, hlength⟩ := ih fun d hd => h d (List.mem_cons_of_mem _ hd)
    refine ⟨UInt8.ofNat c.toNat :: bytes, ?_, ?_⟩
    · rw [List.mapM_cons, if_pos (h c List.mem_cons_self), hbytes]
      rfl
    · rw [List.length_cons, List.length_cons, hlength]

/-! ## Results that fit -/

variable {numbers : Numbers}

theorem canonical_again (v : Json) : canonical numbers v.canonical = canonical numbers v := by
  show String.ofList (render _ _ v.canonical.canonical) = String.ofList (render _ _ v.canonical)
  rw [Json.canonical_canonical]

/-- A result that is not too large is sent with its data in order. -/
theorem resultToWire_ok (hnumbers : numbers.Faithful) {result : Result} {wire : Json}
    (hdata : Proper numbers.has (dataOf result)) (h : resultToWire numbers result = .ok wire) :
    wire = wireOf result (dataOf result).canonical ∧
      (canonical numbers (dataOf result)).toList.length ≤ maxData := by
  unfold resultToWire at h
  by_cases hlarge : maxData < (canonical numbers (dataOf result)).toList.length
  · rw [if_pos hlarge] at h
    cases h
  · have hread : loads numbers (canonical numbers (dataOf result)) =
        some (dataOf result).canonical := loads_dumps hnumbers ⟨rfl, rfl⟩ hdata
    rw [if_neg hlarge, hread] at h
    cases h
    exact ⟨rfl, Nat.le_of_not_lt hlarge⟩

theorem proper_payload {result : Result} {data : Json} (hdata : Proper numbers.has data)
    (outcome nonce : String) :
    Proper numbers.has (payload outcome (wireOf result data) nonce) := by
  simp only [payload, wireOf, Proper, ProperFields, List.map_cons, List.map_nil, and_true, true_and]
  exact ⟨by decide +kernel, by decide +kernel, hdata⟩

/-- The bytes that a result is sent in, and how many there are. -/
theorem body_of_result (hnumbers : numbers.Faithful) {result : Result} {wire : Json}
    (hdata : Proper numbers.has (dataOf result)) (h : resultToWire numbers result = .ok wire)
    {nonce : String} (hlength : nonce.toList.length = 32)
    (hhex : ∀ c ∈ nonce.toList, c ∈ "0123456789abcdef".toList) :
    ∃ body, bodyOf numbers (payload "ok" wire nonce) = some body ∧
      body.length = overhead + (canonical numbers (dataOf result)).toList.length +
        escaped (cut result.error maxError) + escaped (cut result.evidenceSnippet maxEvidence) +
        escaped (cut result.rawOutput maxRawOutput) + if result.success then 4 else 5 := by
  obtain ⟨rfl, -⟩ := resultToWire_ok hnumbers hdata h
  have hproper : Proper numbers.has
      (payload "ok" (wireOf result (dataOf result).canonical) nonce) :=
    proper_payload (proper_canonical hdata) "ok" nonce
  have hascii : Ascii (canonical numbers
      (payload "ok" (wireOf result (dataOf result).canonical) nonce)).toList :=
    dumps_ascii hnumbers ⟨rfl, rfl⟩ rfl hproper
  obtain ⟨body, hbody, hsize⟩ := ascii?_of_ascii hascii
  refine ⟨body, hbody, ?_⟩
  rw [hsize, ← canonical_again (dataOf result)]
  exact length_body hlength hhex

/-- **A result comes through exactly when its texts, once they are escaped, leave room for each
other.**  They are cut before they are escaped, each by itself, to three quarters of the limit. -/
theorem result_comes_through (hnumbers : numbers.Faithful) {result : Result} {wire : Json}
    (hdata : Proper numbers.has (dataOf result)) (h : resultToWire numbers result = .ok wire)
    {nonce : String} (hlength : nonce.toList.length = 32)
    (hhex : ∀ c ∈ nonce.toList, c ∈ "0123456789abcdef".toList) :
    (∃ body, bodyOf numbers (payload "ok" wire nonce) = some body ∧
      body.length ≤ maxBodyBytes ∧
      ∀ parts, parts.flatten = body →
        comesThrough maxBodyBytes (some (some body.length)) parts = true) ↔
      (canonical numbers (dataOf result)).toList.length + escaped (cut result.error maxError) +
        escaped (cut result.evidenceSnippet maxEvidence) +
        escaped (cut result.rawOutput maxRawOutput) +
        (if result.success then 4 else 5) ≤ maxBodyBytes - overhead := by
  obtain ⟨body, hbody, hsize⟩ := body_of_result hnumbers hdata h hlength hhex
  have hover : overhead ≤ maxBodyBytes := by decide
  constructor
  · rintro ⟨body', hbody', hle, -⟩
    rw [hbody] at hbody'
    cases hbody'
    omega
  · intro hle
    refine ⟨body, hbody, by omega, fun parts hparts => ?_⟩
    have hreceived : receivedAll maxBodyBytes 0 parts = true :=
      receivedAll_of_le (by rw [hparts]; omega)
    have hdeclared : (body.length : Int) ≤ maxBodyBytes := by omega
    rw [comesThrough, hreceived, Bool.and_true]
    exact decide_eq_true hdeclared

/-- **Texts with nothing to escape always come through.** -/
theorem plain_result_comes_through (hnumbers : numbers.Faithful) {result : Result} {wire : Json}
    (hdata : Proper numbers.has (dataOf result)) (h : resultToWire numbers result = .ok wire)
    (hplain : ∀ text ∈ [result.error, result.evidenceSnippet, result.rawOutput],
      ∀ c ∈ text.toList, escapeChar true c = [c])
    {nonce : String} (hlength : nonce.toList.length = 32)
    (hhex : ∀ c ∈ nonce.toList, c ∈ "0123456789abcdef".toList) :
    ∃ body, bodyOf numbers (payload "ok" wire nonce) = some body ∧ body.length ≤ maxBodyBytes := by
  have hcut : ∀ text ∈ [result.error, result.evidenceSnippet, result.rawOutput],
      ∀ n, escaped (cut text n) ≤ n := by
    intro text htext n
    unfold escaped cut
    rw [String.toList_ofList]
    have hall : ∀ c ∈ text.toList.take n, escapeChar true c = [c] := fun c hc =>
      hplain text htext c (List.mem_of_mem_take hc)
    have hsame : (text.toList.take n).flatMap (escapeChar true) = text.toList.take n := by
      rw [List.flatMap_congr hall, List.flatMap_singleton']
    rw [hsame, List.length_take]
    exact Nat.min_le_left _ _
  obtain ⟨body, hbody, hsize⟩ := body_of_result hnumbers hdata h hlength hhex
  have herror := hcut result.error (by simp) maxError
  have hevidence := hcut result.evidenceSnippet (by simp) maxEvidence
  have hraw := hcut result.rawOutput (by simp) maxRawOutput
  have hlimit := (resultToWire_ok hnumbers hdata h).2
  have hroom : overhead + maxData + maxError + maxEvidence + maxRawOutput + 5 ≤ maxBodyBytes := by
    decide
  have hflag : (if result.success = true then 4 else 5) ≤ 5 := by split <;> omega
  exact ⟨body, hbody, by omega⟩

/-- The runner's own account of the result has the same text. -/
theorem toWire_canonical (hnumbers : numbers.Faithful) {site : Site}
    (hsite : ∀ v, site.canonicalLength v = (canonical numbers v).toList.length) {result : Result}
    {wire : Json} (hdata : Proper numbers.has (dataOf result))
    (h : resultToWire numbers result = .ok wire) :
    ∃ wire', toWire site result = .ok wire' ∧ canonical numbers wire' = canonical numbers wire := by
  obtain ⟨rfl, hlimit⟩ := resultToWire_ok hnumbers hdata h
  refine ⟨wireOf result (dataOf result), ?_, ?_⟩
  · have hsmall : ¬ 96 * 1024 < site.canonicalLength (dataOf result) := by
      rw [hsite]
      exact Nat.not_lt.mpr hlimit
    exact if_neg hsmall
  · have hsame : (wireOf result (dataOf result)).canonical =
        (wireOf result (dataOf result).canonical).canonical := by
      rw [wireOf, wireOf, canonical_wire, canonical_wire, Json.canonical_canonical]
    rw [← canonical_again, hsame, canonical_again]

/-! ## A result that is dropped -/

/-- A result of nothing but the screen of a terminal. -/
def screenResult (screen : String) : Result where
  success := true
  rawOutput := screen

/-- As many characters as are kept, each of them outside the basic plane. -/
def astralScreen : String := String.ofList (List.replicate maxRawOutput '😀')

/-- A nonce. -/
def sampleNonce : String := "00000000000000000000000000000000"

theorem sampleNonce_hex : sampleNonce.toList.length = 32 ∧
    ∀ c ∈ sampleNonce.toList, c ∈ "0123456789abcdef".toList :=
  ⟨by decide, List.all_iff_forall_prop.mp (by decide)⟩

theorem screenResult_proper (screen : String) :
    Proper integers.has (dataOf (screenResult screen)) :=
  show Proper integers.has (.obj []) from ⟨List.nodup_nil, trivial⟩

theorem screenResult_sent (screen : String) :
    ∃ wire, resultToWire integers (screenResult screen) = .ok wire := by
  have hread : loads integers (canonical integers (.obj [])) = some (.obj []) := by decide +kernel
  have hsmall : ¬ maxData < (canonical integers (.obj [])).toList.length := by decide +kernel
  refine ⟨wireOf (screenResult screen) (.obj []), ?_⟩
  have hdata : dataOf (screenResult screen) = .obj [] := rfl
  rw [resultToWire, hdata, if_neg hsmall, hread]

theorem escaped_replicate (n : Nat) (c : Char) :
    escaped (String.ofList (List.replicate n c)) = n * (escapeChar true c).length := by
  unfold escaped
  rw [String.toList_ofList, List.length_flatMap, List.map_replicate, List.sum_replicate_nat]

/-- Such a screen is cut to 65536 characters and sent in three times as many bytes as the server
takes: the result of the call is dropped. -/
theorem astral_result_dropped : ∃ wire body,
    resultToWire integers (screenResult astralScreen) = .ok wire ∧
    bodyOf integers (payload "ok" wire sampleNonce) = some body ∧ maxBodyBytes < body.length ∧
    comesThrough maxBodyBytes (some (some body.length)) [body] = false := by
  obtain ⟨wire, hwire⟩ := screenResult_sent astralScreen
  obtain ⟨body, hbody, hsize⟩ := body_of_result integers_faithful (screenResult_proper astralScreen)
    hwire sampleNonce_hex.1 sampleNonce_hex.2
  have hcut : cut (screenResult astralScreen).rawOutput maxRawOutput = astralScreen := by
    unfold cut astralScreen screenResult
    dsimp only
    rw [String.toList_ofList, List.take_of_length_le (by rw [List.length_replicate])]
  have hescape : (escapeChar true '😀').length = 12 := by decide +kernel
  have hraw : escaped (cut (screenResult astralScreen).rawOutput maxRawOutput) =
      maxRawOutput * 12 := by
    rw [hcut, astralScreen, escaped_replicate, hescape]
  rw [hraw] at hsize
  have hroom : maxBodyBytes < maxRawOutput * 12 := by decide
  have hlarge : maxBodyBytes < body.length := by omega
  refine ⟨wire, body, hwire, hbody, hlarge, ?_⟩
  have hdeclared : ¬ (body.length : Int) ≤ maxBodyBytes := by omega
  rw [comesThrough, Bool.and_eq_false_iff]
  exact .inl (decide_eq_false hdeclared)

theorem result_comes_through_sample :
    ∃ wire, (∃ body, bodyOf integers (payload "ok" wire sampleNonce) = some body ∧
      body.length ≤ maxBodyBytes ∧
      ∀ parts, parts.flatten = body →
        comesThrough maxBodyBytes (some (some body.length)) parts = true) ↔
      (canonical integers (dataOf (screenResult "READY"))).toList.length +
        escaped (cut (screenResult "READY").error maxError) +
        escaped (cut (screenResult "READY").evidenceSnippet maxEvidence) +
        escaped (cut (screenResult "READY").rawOutput maxRawOutput) +
        (if (screenResult "READY").success then 4 else 5) ≤ maxBodyBytes - overhead := by
  obtain ⟨wire, hwire⟩ := screenResult_sent "READY"
  exact ⟨wire, result_comes_through integers_faithful (screenResult_proper "READY") hwire
    sampleNonce_hex.1 sampleNonce_hex.2⟩

end Runner
end L1Agent
