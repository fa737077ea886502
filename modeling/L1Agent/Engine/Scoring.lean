import Mathlib.Algebra.Order.Ring.Rat
import Mathlib.Data.Finset.Card
import Mathlib.Data.Rat.Cast.Order
import Mathlib.Tactic.Linarith
import Mathlib.Tactic.NormNum
import L1Agent.Engine.SopMatcher
import L1Agent.Library.PyText
import L1Agent.Library.Ranking
import L1Agent.Library.WeightedMean

/-! # How an SOP is scored (`engine/sop_matcher.py`)

The score of an SOP is the mean of four signals, over those that the ticket and the SOP both carry;
the resolution memory may scale it by a tenth.  Numbers are exact.

The docstring says that distinct keywords are counted; the loop counts every entry of the list, and
the number of hits that is asked for grows with the list too.  `matching_behaves` says when a
keyword that is listed again makes no difference.

That it is an equivalence is `score_again_iff`.  The rest holds without a condition: a kind that
matches never lowers the score (`score_matched`), one that does not never raises it
(`score_mismatched`), and the match is the first SOP of the greatest score (`Matcher.find_first`).
-/
namespace L1Agent
namespace Scoring
open Ranking WeightedMean

/-- An SOP with what it says that it applies to. -/
structure Candidate extends SOP where
  keywords : List String := []
  applicableServices : List String := []
  applicableCategories : List String := []
  applicableAssignmentGroups : List String := []
  deriving DecidableEq

/-- What the scores use of the language. -/
structure Matching where
  /-- `text.lower()` -/
  lower : String → String
  /-- `re.compile(pattern)`, as the search for it; `none` where it raises `re.error`. -/
  compile : String → Option (String → Bool)
  /-- `re.escape(text)` -/
  escape : String → String

/-- `KEYWORD_HITS_FOR_FULL_SCORE` -/
def keywordHitsForFullScore : Nat := 3

/-- `_TITLE_STOPWORDS` -/
def titleStopwords : List String :=
  ["a", "an", "and", "at", "by", "for", "in", "of", "on", "or", "the", "to", "with"]

/-- A character of `[a-z0-9]`. -/
def isTokenChar (c : Char) : Bool := c.isLower || c.isDigit

variable (lang : Matching)

/-- `_tokens` -/
def tokens (text : String) : Finset String :=
  let words := ((lang.lower text).toList.splitOnP fun c => !isTokenChar c).filter (· ≠ [])
  (words.map String.ofList).toFinset.filter (· ∉ titleStopwords)

/-! ## The signals -/

/-- The keyword stands in the text as a whole word; a keyword that is no pattern stands for
itself. -/
def found (keyword text : String) : Bool :=
  let pattern := lang.lower keyword
  match lang.compile ("(?<![a-z0-9])(?:" ++ pattern ++ ")(?![a-z0-9])") with
  | some search => search text
  | none =>
    match lang.compile ("(?<![a-z0-9])" ++ lang.escape pattern ++ "(?![a-z0-9])") with
    | some search => search text
    | none => false

/-- The share of the title's words that the short description has. -/
def titleShare (shortDesc title : String) : Rat :=
  let titleWords := tokens lang title
  if titleWords = ∅ then 0
  else ((titleWords ∩ tokens lang shortDesc).card : Rat) / titleWords.card

/-- `hits` -/
def hits (shortDesc desc : String) (sop : Candidate) : Rat :=
  (sop.keywords.countP fun kw => found lang kw shortDesc || found lang kw desc : Nat) +
    titleShare lang shortDesc sop.title

/-- `min(len(keywords), KEYWORD_HITS_FOR_FULL_SCORE) or 1` -/
def needed (listed : Nat) : Nat :=
  if min listed keywordHitsForFullScore = 0 then 1 else min listed keywordHitsForFullScore

/-- `_keyword_score` -/
def keywordScore (shortDesc desc : String) (sop : Candidate) : Option Rat :=
  if sop.keywords = [] ∧ tokens lang sop.title = ∅ then none
  else some (min (hits lang shortDesc desc sop / needed sop.keywords.length) 1)

/-- `text.strip().lower()` -/
def plain (text : String) : String :=
  lang.lower (String.ofList (PyText.strip text.toList))

/-- The score of a list that the SOP gives: one where an entry matches, and none where the SOP lists
nothing or the ticket has nothing to compare. -/
def listedScore (listed : List String) (comparable : Bool) (fits : String → Bool) : Option Rat :=
  if listed = [] ∨ comparable = false then none
  else some (if listed.any fits then 1 else 0)

/-- `_category_score` -/
def categoryScore (incident : Incident) (sop : Candidate) : Option Rat :=
  let cat := plain lang incident.category
  let subcat := plain lang incident.subcategory
  listedScore sop.applicableCategories (cat ≠ "" || subcat ≠ "") fun ac =>
    lang.lower ac = cat || lang.lower ac = subcat

/-- `_ci_score` -/
def ciScore (incident : Incident) (sop : Candidate) : Option Rat :=
  let ci := plain lang incident.cmdbCi
  listedScore sop.applicableServices (ci ≠ "") fun svc =>
    lang.lower svc = ci || decide ((lang.lower svc).toList <:+: ci.toList)

/-- `_group_score` -/
def groupScore (incident : Incident) (sop : Candidate) : Option Rat :=
  let group := plain lang incident.assignmentGroup
  listedScore sop.applicableAssignmentGroups (group ≠ "") fun ag => lang.lower ag = group

/-- `signals`, each under its name and with its weight of `WEIGHTS`. -/
def signals (incident : Incident) (sop : Candidate) : List (String × Signal Rat) :=
  let shortDesc := lang.lower incident.shortDescription
  let desc := lang.lower incident.description
  [("keyword", ⟨1 / 2, keywordScore lang shortDesc desc sop⟩),
    ("ci", ⟨1 / 5, ciScore lang incident sop⟩),
    ("category", ⟨3 / 20, categoryScore lang incident sop⟩),
    ("group", ⟨3 / 20, groupScore lang incident sop⟩)]

/-- The score of an SOP for the ticket. -/
def score (incident : Incident) (sop : Candidate) : Rat :=
  mean ((signals lang incident sop).map (·.2))

/-! ## The resolution memory (`engine/resolution_memory.py`) -/

/-- The records that the counts are kept of: an SOP, and whether the incident was resolved. -/
structure Memory where
  records : List (String × Bool) := []

/-- `success_rate` -/
def Memory.successRate (m : Memory) (sopId : String) : Rat :=
  let total := m.records.countP (·.1 == sopId)
  if total = 0 then 1 / 2
  else (m.records.countP fun r => r.1 == sopId && r.2 : Nat) / (total : Rat)

/-- `boost_factor` -/
def Memory.boostFactor (m : Memory) (sopId : String) : Rat :=
  if m.records.countP (·.1 == sopId) < 3 then 1
  else 9 / 10 + m.successRate sopId * (1 / 5)

/-- The score with the memory's boost. -/
def boosted (memory : Option Memory) (sopId : String) (score : Rat) : Rat :=
  match memory with
  | none => score
  | some m =>
    if sopId ≠ "" ∧ m.boostFactor sopId ≠ 1 then min (score * m.boostFactor sopId) 1 else score

/-! ## The match -/

/-- `SOPMatcher` -/
structure Matcher where
  lang : Matching
  memory : Option Memory := none
  threshold : Rat
  /-- `str(self._threshold)` -/
  shown : String

/-- `MatchResult` -/
structure MatchResult where
  sop : Option Candidate
  confidence : Rat
  rationale : String
  alternatives : List (Candidate × Rat) := []

namespace Matcher
variable (m : Matcher)

/-- The score that the candidates are compared by. -/
def confidence (incident : Incident) (sop : Candidate) : Rat :=
  boosted m.memory sop.sopId (score m.lang incident sop)

/-- `reasons` -/
def reasons (incident : Incident) (sop : Candidate) : List String :=
  let all := signals m.lang incident sop
  let matched := all.filterMap fun s =>
    match s.2.value with
    | some v => if 0 < v then some (s.1 ++ "=" ++ twoDecimals v) else none
    | none => none
  let skipped := (all.filter fun s => s.2.value.isNone).map (·.1)
  let boost := match m.memory with
    | none => []
    | some memory =>
      if sop.sopId ≠ "" ∧ memory.boostFactor sop.sopId ≠ 1 then
        ["memory_boost=" ++ twoDecimals (memory.boostFactor sop.sopId)] else []
  matched ++ (if skipped = [] then [] else ["not compared: " ++ "/".intercalate skipped]) ++ boost

/-- `rationale` -/
def rationale (incident : Incident) (sop : Candidate) : String :=
  let reasons := m.reasons incident sop
  s!"Score {twoDecimals (m.confidence incident sop)}: " ++
    (if reasons = [] then "no match signals" else ", ".intercalate reasons)

/-- `scored` -/
def scored (incident : Incident) (sops : List Candidate) : List (Candidate × Rat × String) :=
  sops.map fun sop => (sop, m.confidence incident sop, m.rationale incident sop)

/-- `match` -/
def find (incident : Incident) (sops : List Candidate) : MatchResult :=
  match ranked (·.2.1) (m.scored incident sops) with
  | [] => ⟨none, 0, "No SOPs available in the knowledge base.", []⟩
  | (sop, best, why) :: others =>
    let alternatives := ((others.take 3).filter fun x => 0 < x.2.1).map fun x => (x.1, x.2.1)
    if best < m.threshold then
      ⟨sop, best, s!"Low confidence ({twoDecimals best} < {m.shown}). Best: {why}", alternatives⟩
    else ⟨sop, best, why, alternatives⟩

end Matcher

/-! ## Every signal is a share -/

section
variable {lang} {incident : Incident} {sop : Candidate} {shortDesc desc : String}

theorem listedScore_share {listed : List String} {comparable : Bool} {fits : String → Bool} {v : Rat}
    (h : listedScore listed comparable fits = some v) : 0 ≤ v ∧ v ≤ 1 := by
  unfold listedScore at h
  split at h
  · cases h
  · rw [← Option.some.inj h]
    split
    · exact ⟨zero_le_one, le_refl _⟩
    · exact ⟨le_refl _, zero_le_one⟩

theorem titleShare_bounds (title : String) :
    0 ≤ titleShare lang shortDesc title ∧ titleShare lang shortDesc title ≤ 1 := by
  unfold titleShare
  dsimp only
  split
  · exact ⟨le_refl _, zero_le_one⟩
  · rename_i hsome
    have hpos : 0 < (tokens lang title).card :=
      Finset.card_pos.mpr (Finset.nonempty_iff_ne_empty.mpr hsome)
    have hle : (tokens lang title ∩ tokens lang shortDesc).card ≤ (tokens lang title).card :=
      Finset.card_le_card Finset.inter_subset_left
    refine ⟨by positivity, ?_⟩
    rw [div_le_one (by exact_mod_cast hpos)]
    exact_mod_cast hle

theorem needed_pos (listed : Nat) : 0 < needed listed := by
  unfold needed keywordHitsForFullScore
  split <;> omega

theorem hits_nonneg : 0 ≤ hits lang shortDesc desc sop :=
  add_nonneg (by positivity) (titleShare_bounds sop.title).1

theorem keywordScore_share {v : Rat} (h : keywordScore lang shortDesc desc sop = some v) :
    0 ≤ v ∧ v ≤ 1 := by
  unfold keywordScore at h
  split at h
  · cases h
  · rw [← Option.some.inj h]
    have hpos : (0 : Rat) < needed sop.keywords.length := by exact_mod_cast needed_pos _
    exact ⟨le_min (div_nonneg hits_nonneg hpos.le) zero_le_one, min_le_right _ _⟩

theorem signals_sound (s : Signal Rat) (hs : s ∈ (signals lang incident sop).map (·.2)) :
    s.Sound := by
  simp only [signals, List.map_cons, List.map_nil, List.mem_cons, List.not_mem_nil, or_false] at hs
  obtain rfl | rfl | rfl | rfl := hs
  · exact ⟨by norm_num, fun v => keywordScore_share⟩
  · exact ⟨by norm_num, fun v => listedScore_share⟩
  · exact ⟨by norm_num, fun v => listedScore_share⟩
  · exact ⟨by norm_num, fun v => listedScore_share⟩

theorem score_bounds : 0 ≤ score lang incident sop ∧ score lang incident sop ≤ 1 :=
  mean_bounds signals_sound

end

/-! ## The boost -/

theorem Memory.successRate_bounds (m : Memory) (sopId : String) :
    0 ≤ m.successRate sopId ∧ m.successRate sopId ≤ 1 := by
  unfold Memory.successRate
  dsimp only
  split
  · norm_num
  · rename_i htotal
    have hpos : 0 < m.records.countP (·.1 == sopId) := Nat.pos_of_ne_zero htotal
    have hle : (m.records.countP fun r => r.1 == sopId && r.2) ≤ m.records.countP (·.1 == sopId) :=
      List.countP_mono_left fun r _ hr => (Bool.and_eq_true_iff.mp hr).1
    refine ⟨by positivity, ?_⟩
    rw [div_le_one (by exact_mod_cast hpos)]
    exact_mod_cast hle

/-- The boost is a tenth at most, either way. -/
theorem Memory.boostFactor_bounds (m : Memory) (sopId : String) :
    9 / 10 ≤ m.boostFactor sopId ∧ m.boostFactor sopId ≤ 11 / 10 := by
  obtain ⟨hlow, hhigh⟩ := m.successRate_bounds sopId
  unfold Memory.boostFactor
  split
  · norm_num
  · constructor <;> linarith

theorem boosted_bounds {memory : Option Memory} {sopId : String} {x : Rat} (h : 0 ≤ x ∧ x ≤ 1) :
    0 ≤ boosted memory sopId x ∧ boosted memory sopId x ≤ 1 := by
  unfold boosted
  match memory with
  | none => exact h
  | some m =>
    dsimp only
    split
    · have hfactor : 0 ≤ m.boostFactor sopId := by linarith [(m.boostFactor_bounds sopId).1]
      exact ⟨le_min (mul_nonneg h.1 hfactor) zero_le_one, min_le_right _ _⟩
    · exact h

/-- A boost keeps the order of two scores of one SOP. -/
theorem boosted_mono {memory : Option Memory} {sopId : String} {x y : Rat} (h : x ≤ y) :
    boosted memory sopId x ≤ boosted memory sopId y := by
  unfold boosted
  match memory with
  | none => exact h
  | some m =>
    dsimp only
    split
    · have hfactor : 0 ≤ m.boostFactor sopId := by linarith [(m.boostFactor_bounds sopId).1]
      exact min_le_min_right 1 (mul_le_mul_of_nonneg_right h hfactor)
    · exact h

/-! ## A further kind of signal -/

/-- The kinds of signal that an SOP lists values for. -/
inductive Kind where
  | service
  | category
  | group
  deriving DecidableEq

/-- What the SOP lists of the kind. -/
def Candidate.listing (sop : Candidate) : Kind → List String
  | .service => sop.applicableServices
  | .category => sop.applicableCategories
  | .group => sop.applicableAssignmentGroups

/-- The SOP with this list of the kind. -/
def Candidate.withListing (sop : Candidate) (listed : List String) : Kind → Candidate
  | .service => { sop with applicableServices := listed }
  | .category => { sop with applicableCategories := listed }
  | .group => { sop with applicableAssignmentGroups := listed }

/-- The signal of the kind. -/
def signal (incident : Incident) (sop : Candidate) : Kind → Option Rat
  | .service => ciScore lang incident sop
  | .category => categoryScore lang incident sop
  | .group => groupScore lang incident sop

section
variable {lang} {incident : Incident} {sop : Candidate}

theorem listedScore_nil {comparable : Bool} {fits : String → Bool} :
    listedScore [] comparable fits = none := if_pos (Or.inl rfl)

/-- The score is the mean with the kind's signal in its place. -/
theorem score_split (kind : Kind) : ∃ (w : Rat) (before after : List (Signal Rat)), 0 < w ∧
    (∀ s ∈ before, s.Sound) ∧ (∀ s ∈ after, s.Sound) ∧
    score lang incident sop = mean (before ++ ⟨w, signal lang incident sop kind⟩ :: after) ∧
    ∀ listed, score lang incident (sop.withListing listed kind) =
      mean (before ++ ⟨w, signal lang incident (sop.withListing listed kind) kind⟩ :: after) := by
  have hsound := @signals_sound lang incident sop
  simp only [signals, List.map_cons, List.map_nil, List.forall_mem_cons] at hsound
  obtain ⟨hkeyword, hci, hcategory, hgroup, hnone⟩ := hsound
  cases kind with
  | service =>
    refine ⟨1 / 5, [_], [_, _], by norm_num, ?_, ?_, rfl, fun listed => rfl⟩
    · exact List.forall_mem_singleton.mpr hkeyword
    · exact List.forall_mem_cons.mpr ⟨hcategory, List.forall_mem_singleton.mpr hgroup⟩
  | category =>
    refine ⟨3 / 20, [_, _], [_], by norm_num, ?_, ?_, rfl, fun listed => rfl⟩
    · exact List.forall_mem_cons.mpr ⟨hkeyword, List.forall_mem_singleton.mpr hci⟩
    · exact List.forall_mem_singleton.mpr hgroup
  | group =>
    refine ⟨3 / 20, [_, _, _], [], by norm_num, ?_, ?_, rfl, fun listed => rfl⟩
    · exact List.forall_mem_cons.mpr ⟨hkeyword, List.forall_mem_cons.mpr
        ⟨hci, List.forall_mem_singleton.mpr hcategory⟩⟩
    · exact fun s hs => absurd hs List.not_mem_nil

theorem signal_none {kind : Kind} (h : sop.listing kind = []) :
    signal lang incident sop kind = none := by
  cases kind with
  | service =>
    show listedScore sop.applicableServices _ _ = none
    rw [show sop.applicableServices = [] from h]
    exact listedScore_nil
  | category =>
    show listedScore sop.applicableCategories _ _ = none
    rw [show sop.applicableCategories = [] from h]
    exact listedScore_nil
  | group =>
    show listedScore sop.applicableAssignmentGroups _ _ = none
    rw [show sop.applicableAssignmentGroups = [] from h]
    exact listedScore_nil

/-- **A further kind that the ticket matches never lowers the score.** -/
theorem score_matched {kind : Kind} {listed : List String} (h : sop.listing kind = [])
    (hmatch : signal lang incident (sop.withListing listed kind) kind = some 1) :
    score lang incident sop ≤ score lang incident (sop.withListing listed kind) := by
  obtain ⟨w, before, after, hw, hb, ha, hscore, hwith⟩ := @score_split lang incident sop kind
  rw [hscore, hwith listed, signal_none h, hmatch]
  exact mean_le_matched hb ha hw

/-- **One that it does not match never raises it.** -/
theorem score_mismatched {kind : Kind} {listed : List String} (h : sop.listing kind = [])
    (hmatch : signal lang incident (sop.withListing listed kind) kind = some 0) :
    score lang incident (sop.withListing listed kind) ≤ score lang incident sop := by
  obtain ⟨w, before, after, hw, hb, ha, hscore, hwith⟩ := @score_split lang incident sop kind
  rw [hscore, hwith listed, signal_none h, hmatch]
  exact mismatched_le_mean hb ha hw

end

/-! ## A keyword that is listed again -/

/-- The keyword stands in the ticket. -/
def stands (incident : Incident) (kw : String) : Bool :=
  found lang kw (lang.lower incident.shortDescription) ||
    found lang kw (lang.lower incident.description)

/-- The hits that the ticket gives the SOP. -/
def ticketHits (incident : Incident) (sop : Candidate) : Rat :=
  hits lang (lang.lower incident.shortDescription) (lang.lower incident.description) sop

/-- **A keyword more makes no difference**: one that stands in the ticket, because there are enough
hits without it; and one that does not, because as many hits are asked for already, or there are
none. -/
def Saturated (incident : Incident) (sop : Candidate) : Prop :=
  ∀ kw ∈ sop.keywords,
    if stands lang incident kw then (needed sop.keywords.length : Rat) ≤ ticketHits lang incident sop
    else keywordHitsForFullScore ≤ sop.keywords.length ∨ ticketHits lang incident sop = 0

/-- How many hits are asked for, of a list that is not empty. -/
theorem needed_cases {n : Nat} (h : 0 < n) :
    (n = 1 ∧ needed n = 1 ∧ needed (n + 1) = 2) ∨ (n = 2 ∧ needed n = 2 ∧ needed (n + 1) = 3) ∨
      (3 ≤ n ∧ needed n = 3 ∧ needed (n + 1) = 3) := by
  unfold needed keywordHitsForFullScore
  by_cases h1 : n = 1
  · subst h1
    exact Or.inl (by decide)
  · by_cases h2 : n = 2
    · subst h2
      exact Or.inr (Or.inl (by decide))
    · refine Or.inr (Or.inr ⟨by omega, ?_, ?_⟩)
      · rw [Nat.min_eq_right (by omega)]
        decide
      · rw [Nat.min_eq_right (by omega)]
        decide

theorem share_full {x n : Rat} (hn : 0 < n) (h : n ≤ x) : min (x / n) 1 = 1 :=
  min_eq_right ((one_le_div hn).mpr h)

theorem share_part {x n : Rat} (hn : 0 < n) (h : x < n) : min (x / n) 1 = x / n :=
  min_eq_left ((div_lt_one hn).mpr h).le

/-- One more hit for one more keyword. -/
theorem share_hit {n : Nat} {x : Rat} (hn : 0 < n) (hx : 1 ≤ x) :
    min ((x + 1) / needed (n + 1)) 1 = min (x / needed n) 1 ↔ (needed n : Rat) ≤ x := by
  by_cases hfull : (needed n : Rat) ≤ x
  · have hmore : (needed (n + 1) : Rat) ≤ x + 1 := by
      obtain ⟨-, h, h'⟩ | ⟨-, h, h'⟩ | ⟨-, h, h'⟩ := needed_cases hn <;>
        (rw [h] at hfull; rw [h']; push_cast at hfull ⊢; linarith)
    have hpos : ∀ m, (0 : Rat) < needed m := fun m => by exact_mod_cast needed_pos m
    rw [share_full (hpos _) hfull, share_full (hpos _) hmore]
    exact iff_of_true rfl hfull
  · refine iff_of_false (fun heq => ?_) hfull
    obtain ⟨-, h, h'⟩ | ⟨-, h, h'⟩ | ⟨-, h, h'⟩ := needed_cases hn
    · rw [h] at hfull
      exact hfull (by exact_mod_cast hx)
    · rw [h] at hfull
      push_cast at hfull
      rw [h, h', share_part (by norm_num) (by push_cast; linarith),
        share_part (by norm_num) (by push_cast; linarith)] at heq
      push_cast at heq
      linarith
    · rw [h] at hfull
      push_cast at hfull
      by_cases hlast : x + 1 < 3
      · rw [h, h', share_part (by norm_num) (by push_cast; linarith),
          share_part (by norm_num) (by push_cast; linarith)] at heq
        push_cast at heq
        linarith
      · rw [h, h', share_full (by norm_num) (by push_cast; linarith),
          share_part (by norm_num) (by push_cast; linarith)] at heq
        push_cast at heq
        linarith

/-- No further hit for one more keyword, when one of `n` keywords is no hit. -/
theorem share_miss {n : Nat} {x : Rat} (hn : 0 < n) (hx : 0 ≤ x) (hle : x ≤ n) :
    min (x / needed (n + 1)) 1 = min (x / needed n) 1 ↔ keywordHitsForFullScore ≤ n ∨ x = 0 := by
  unfold keywordHitsForFullScore
  constructor
  · intro heq
    obtain ⟨hn', h, h'⟩ | ⟨hn', h, h'⟩ | ⟨hn', h, h'⟩ := needed_cases hn
    · right
      subst hn'
      push_cast at hle
      rw [h, h', share_part (by norm_num) (by push_cast; linarith)] at heq
      push_cast at heq
      rw [div_one, min_eq_left hle] at heq
      linarith
    · right
      subst hn'
      push_cast at hle
      rw [h, h', share_part (by norm_num) (by push_cast; linarith)] at heq
      push_cast at heq
      rw [min_eq_left (by linarith)] at heq
      linarith
    · exact Or.inl hn'
  · rintro (hn' | rfl)
    · obtain ⟨h, -⟩ | ⟨h, -⟩ | ⟨-, h, h'⟩ := needed_cases hn
      · omega
      · omega
      · rw [h, h']
    · rw [zero_div, zero_div]

section
variable {lang} {incident : Incident} {sop : Candidate} {kw : String} {front back : List String}

/-- The SOP with the keyword listed once more, between these. -/
def Candidate.again (sop : Candidate) (front back : List String) (kw : String) : Candidate :=
  { sop with keywords := front ++ kw :: back }

theorem ticketHits_again (h : sop.keywords = front ++ back) :
    ticketHits lang incident (sop.again front back kw) =
      ticketHits lang incident sop + if stands lang incident kw then 1 else 0 := by
  have hcount : ∀ p : String → Bool, ((front ++ kw :: back).countP p : Rat) =
      (sop.keywords.countP p : Nat) + if p kw then 1 else 0 := by
    intro p
    rw [h, List.countP_append, List.countP_append, List.countP_cons]
    push_cast
    ring
  unfold ticketHits hits
  rw [show (sop.again front back kw).keywords = front ++ kw :: back from rfl, hcount,
    show (sop.again front back kw).title = sop.title from rfl]
  unfold stands
  ring

/-- A keyword that stands in the ticket is a hit. -/
theorem one_le_hits (hkw : kw ∈ sop.keywords) (hstands : stands lang incident kw = true) :
    1 ≤ ticketHits lang incident sop := by
  have hcount : 0 < sop.keywords.countP fun kw => stands lang incident kw :=
    List.countP_pos_iff.mpr ⟨kw, hkw, hstands⟩
  have hshare := (@titleShare_bounds lang (lang.lower incident.shortDescription) sop.title).1
  have hone : (1 : Rat) ≤ (sop.keywords.countP fun kw => stands lang incident kw : Nat) := by
    exact_mod_cast hcount
  exact le_add_of_le_of_nonneg hone hshare

/-- One that does not leaves a keyword to go without a hit. -/
theorem hits_le (hkw : kw ∈ sop.keywords) (hstands : stands lang incident kw = false) :
    ticketHits lang incident sop ≤ sop.keywords.length := by
  have hcount : sop.keywords.countP (fun kw => stands lang incident kw) < sop.keywords.length := by
    refine lt_of_le_of_ne List.countP_le_length fun heq => ?_
    have hall := List.countP_eq_length.mp heq kw hkw
    rw [hstands] at hall
    cases hall
  have hshare := (@titleShare_bounds lang (lang.lower incident.shortDescription) sop.title).2
  have hlt : ((sop.keywords.countP fun kw => stands lang incident kw : Nat) : Rat) + 1 ≤
      sop.keywords.length := by
    exact_mod_cast hcount
  have hsum : ticketHits lang incident sop =
      (sop.keywords.countP fun kw => stands lang incident kw : Nat) +
        titleShare lang (lang.lower incident.shortDescription) sop.title := rfl
  linarith

/-- The score changes with the keywords' share, and with nothing else. -/
theorem score_again (h : sop.keywords = front ++ back) (hkw : kw ∈ sop.keywords) :
    score lang incident (sop.again front back kw) = score lang incident sop ↔
      min (ticketHits lang incident (sop.again front back kw) / needed (sop.keywords.length + 1)) 1 =
        min (ticketHits lang incident sop / needed sop.keywords.length) 1 := by
  have hsound := @signals_sound lang incident sop
  simp only [signals, List.map_cons, List.map_nil, List.forall_mem_cons] at hsound
  obtain ⟨-, hci, hcategory, hgroup, hnone⟩ := hsound
  have hafter : ∀ s ∈ [(⟨1 / 5, ciScore lang incident sop⟩ : Signal Rat),
      ⟨3 / 20, categoryScore lang incident sop⟩, ⟨3 / 20, groupScore lang incident sop⟩], s.Sound :=
    List.forall_mem_cons.mpr ⟨hci, List.forall_mem_cons.mpr
      ⟨hcategory, List.forall_mem_singleton.mpr hgroup⟩⟩
  have hkeyword : ∀ c : Candidate, c.keywords ≠ [] →
      keywordScore lang (lang.lower incident.shortDescription) (lang.lower incident.description) c =
        some (min (ticketHits lang incident c / needed c.keywords.length) 1) :=
    fun c hc => if_neg fun hnone => hc hnone.1
  have hlength : (sop.again front back kw).keywords.length = sop.keywords.length + 1 := by
    rw [h]
    show (front ++ kw :: back).length = _
    rw [List.length_append, List.length_cons, List.length_append, Nat.add_assoc]
  have hold := hkeyword sop (List.ne_nil_of_mem hkw)
  have hnew := hkeyword (sop.again front back kw) (by
    show front ++ kw :: back ≠ []
    exact List.append_ne_nil_of_right_ne_nil _ (List.cons_ne_nil _ _))
  rw [hlength] at hnew
  have hleft : score lang incident (sop.again front back kw) = mean ([] ++ ⟨1 / 2, some (min
      (ticketHits lang incident (sop.again front back kw) / needed (sop.keywords.length + 1)) 1)⟩ ::
        [(⟨1 / 5, ciScore lang incident sop⟩ : Signal Rat),
          ⟨3 / 20, categoryScore lang incident sop⟩, ⟨3 / 20, groupScore lang incident sop⟩]) := by
    rw [← hnew]
    rfl
  have hright : score lang incident sop = mean ([] ++ ⟨1 / 2, some (min
      (ticketHits lang incident sop / needed sop.keywords.length) 1)⟩ ::
        [(⟨1 / 5, ciScore lang incident sop⟩ : Signal Rat),
          ⟨3 / 20, categoryScore lang incident sop⟩, ⟨3 / 20, groupScore lang incident sop⟩]) := by
    rw [← hold]
    rfl
  rw [hleft, hright]
  exact mean_inj (fun s hs => absurd hs List.not_mem_nil) hafter (by norm_num)

/-- **Listing a keyword again changes nothing** exactly where one more makes no difference. -/
theorem score_again_iff (h : sop.keywords = front ++ back) (hkw : kw ∈ sop.keywords) :
    score lang incident (sop.again front back kw) = score lang incident sop ↔
      if stands lang incident kw then
        (needed sop.keywords.length : Rat) ≤ ticketHits lang incident sop
      else keywordHitsForFullScore ≤ sop.keywords.length ∨ ticketHits lang incident sop = 0 := by
  have hpos : 0 < sop.keywords.length := List.length_pos_of_mem hkw
  rw [score_again h hkw, ticketHits_again h]
  by_cases hstands : stands lang incident kw = true
  · rw [if_pos hstands, if_pos hstands]
    exact share_hit hpos (one_le_hits hkw hstands)
  · rw [if_neg hstands, if_neg hstands, add_zero]
    exact share_miss hpos hits_nonneg (hits_le hkw (by simpa using hstands))

end

/-! ## The matcher -/

section
variable {m : Matcher} {incident : Incident} {sop : Candidate} {sops : List Candidate}

/-- An SOP's entry does not depend on the others. -/
theorem Matcher.scored_alone (before after : List Candidate) :
    (m.scored incident (before ++ sop :: after))[before.length]? =
      (m.scored incident [sop])[0]? := by
  unfold Matcher.scored
  rw [List.map_append, List.map_cons, List.getElem?_append_right (by rw [List.length_map]),
    List.length_map, Nat.sub_self]
  rfl

/-- **The match is the first SOP of the greatest score**, with that score. -/
theorem Matcher.find_first (hne : sops ≠ []) : ∃ before best after,
    sops = before ++ best :: after ∧ (m.find incident sops).sop = some best ∧
      (m.find incident sops).confidence = m.confidence incident best ∧
      (∀ x ∈ before, m.confidence incident x < m.confidence incident best) ∧
      ∀ x ∈ after, m.confidence incident x ≤ m.confidence incident best := by
  have hscored : m.scored incident sops ≠ [] := fun h => hne (List.map_eq_nil_iff.mp h)
  obtain ⟨x, others, hranked⟩ := @exists_head _ _ _ (fun x : Candidate × Rat × String => x.2.1)
    _ hscored
  obtain ⟨front, back, hsplit, hfront, hback⟩ := head_first hranked
  obtain ⟨before, rest, rfl, rfl, hrest⟩ := List.map_eq_append_iff.mp hsplit
  obtain ⟨best, after, rfl, rfl, rfl⟩ := List.map_eq_cons_iff.mp hrest
  refine ⟨before, best, after, rfl, ?_, ?_, fun x hx => ?_, fun x hx => ?_⟩
  · unfold Matcher.find
    rw [hranked]
    dsimp only
    split <;> rfl
  · unfold Matcher.find
    rw [hranked]
    dsimp only
    split <;> rfl
  · exact hfront _ (List.mem_map_of_mem hx)
  · exact hback _ (List.mem_map_of_mem hx)

/-- What is expected of the score of an SOP, and of the match. -/
structure WellBehaved (m : Matcher) (incident : Incident) (sop : Candidate) : Prop where
  share : 0 ≤ score m.lang incident sop ∧ score m.lang incident sop ≤ 1
  boosted : 0 ≤ m.confidence incident sop ∧ m.confidence incident sop ≤ 1
  /-- A further kind of signal, which the ticket matches. -/
  matched : ∀ kind listed, sop.listing kind = [] →
    signal m.lang incident (sop.withListing listed kind) kind = some 1 →
      score m.lang incident sop ≤ score m.lang incident (sop.withListing listed kind) ∧
        m.confidence incident sop ≤ m.confidence incident (sop.withListing listed kind)
  /-- One that can be compared and does not match. -/
  mismatched : ∀ kind listed, sop.listing kind = [] →
    signal m.lang incident (sop.withListing listed kind) kind = some 0 →
      score m.lang incident (sop.withListing listed kind) ≤ score m.lang incident sop ∧
        m.confidence incident (sop.withListing listed kind) ≤ m.confidence incident sop
  /-- A keyword that is listed again. -/
  again : ∀ kw ∈ sop.keywords, ∀ front back, sop.keywords = front ++ back →
    score m.lang incident (sop.again front back kw) = score m.lang incident sop
  alone : ∀ before after, (m.scored incident (before ++ sop :: after))[before.length]? =
    (m.scored incident [sop])[0]?
  first : ∀ sops, sops ≠ [] → ∃ before best after, sops = before ++ best :: after ∧
    (m.find incident sops).sop = some best ∧
      (m.find incident sops).confidence = m.confidence incident best ∧
      (∀ x ∈ before, m.confidence incident x < m.confidence incident best) ∧
      ∀ x ∈ after, m.confidence incident x ≤ m.confidence incident best

theorem confidence_mono {c c' : Candidate} (hid : c'.sopId = c.sopId)
    (h : score m.lang incident c ≤ score m.lang incident c') :
    m.confidence incident c ≤ m.confidence incident c' := by
  unfold Matcher.confidence
  rw [hid]
  exact boosted_mono h

theorem withListing_sopId (kind : Kind) (listed : List String) :
    (sop.withListing listed kind).sopId = sop.sopId := by
  cases kind <;> rfl

end

/-- **The score behaves, but for a keyword that is listed twice.**  Everything else holds of every
ticket, SOP and memory; listing a keyword again leaves the score as it is exactly where each keyword
that stands in the ticket is one of enough hits already, and each that does not is one of three or
more, or there are no hits at all. -/
theorem matching_behaves (m : Matcher) (incident : Incident) (sop : Candidate) :
    WellBehaved m incident sop ↔ Saturated m.lang incident sop := by
  constructor
  · intro h kw hkw
    exact (score_again_iff (List.nil_append sop.keywords).symm hkw).mp (h.again kw hkw [] _ rfl)
  · intro h
    refine ⟨score_bounds, boosted_bounds score_bounds, fun kind listed hnone hmatch => ?_,
      fun kind listed hnone hmatch => ?_, fun kw hkw front back hsplit => ?_,
      Matcher.scored_alone, fun sops => Matcher.find_first⟩
    · have hle := score_matched hnone hmatch
      exact ⟨hle, confidence_mono (withListing_sopId kind listed) hle⟩
    · have hle := score_mismatched hnone hmatch
      exact ⟨hle, confidence_mono (withListing_sopId kind listed).symm hle⟩
    · exact (score_again_iff hsplit hkw).mpr (h kw hkw)

/-- A language in which `disk` is all that is looked for, in texts that are small. -/
def sampleMatching : Matching where
  lower text := text
  compile pattern := some fun text =>
    pattern == "(?<![a-z0-9])(?:disk)(?![a-z0-9])" && text == "disk full"
  escape text := text

/-- An SOP for a full disk. -/
def diskSop (keywords : List String) : Candidate where
  keywords := keywords

/-- One of three keywords stands in the ticket, and is listed again: the score doubles. -/
theorem score_of_repeated_keyword :
    ¬WellBehaved ⟨sampleMatching, none, 3 / 5, "0.6"⟩ { shortDescription := "disk full" }
      (diskSop ["disk", "cpu", "memory"]) := by
  intro h
  have hagain := h.again "disk" (by decide) [] ["disk", "cpu", "memory"] rfl
  revert hagain
  decide +kernel

end Scoring
end L1Agent
