import L1Agent.Library.PosixPath
import L1Agent.Library.Program
import Mathlib.Data.List.Infix

/-! # Log files on shared folders (`adapters/windows_share_adapter.py`)

A path is accepted in one normal form and read in another, below `/mnt`.  Both have the segments of
the path made normal, so what is read is below the mount of a prefix.

`isAllowed_below` is about the first of the two forms: what is accepted begins at the root, below an
allowed prefix.  `reads_below_prefix` is about the file that is opened in the end, whatever slashes,
dots and repeated separators it was asked for with.
-/
namespace L1Agent
namespace WindowsShare
open PosixPath Interleaving

/-- What goes wrong with `open`. -/
inductive OpenError where
  | fileNotFound
  | permission
  | other (text : List Char)

/-- `open(os_path).readlines()` -/
abbrev Opens : Signature := ⟨List Char, fun _ => Except OpenError (List (List Char))⟩

structure Parameters where
  uncPath : List Char := []
  pattern : List Char := []
  lastNLines : Int := 100

/-- `AdapterResult`; the data are the number of lines and the path. -/
structure AdapterResult where
  success : Bool
  data : Option (Nat × List Char) := none
  rawOutput : List Char := []
  error : List Char := []
  evidenceSnippet : List Char := []

/-- `MAX_LINES` -/
def maxLines : Int := 5000

/-- `MAX_NEEDLES` -/
def maxNeedles : Nat := 20

/-- `text.replace("\\", "/")` -/
def forward (text : List Char) : List Char := text.map fun c => if c = '\\' then '/' else c

/-- The prefixes as the adapter keeps them. -/
def allowedPrefixes (allowedUncPrefixes : List (List Char)) : List (List Char) :=
  allowedUncPrefixes.map forward

variable (lower : List Char → List Char) (allowedUncPrefixes : List (List Char))

/-- `_is_allowed` -/
def isAllowed (path : List Char) : Bool :=
  let normalised := normpath path
  (allowedPrefixes allowedUncPrefixes).any fun pre =>
    let base := (normpath pre).rdropWhile (· == '/')
    normalised == base || (base ++ ['/']).isPrefixOf normalised

/-- `_unc_to_os_path` -/
def uncToOsPath (unc : List Char) : List Char := "/mnt/".toList ++ unc.dropWhile (· == '/')

/-- The last `n` of a list. -/
def lastOf {α : Type} (n : Nat) (xs : List α) : List α := xs.drop (xs.length - n)

/-- `_read_file` -/
def readFile (path : List Char) (lastN : Nat) :
    Program Opens OpenError (List (List Char)) := do
  let allLines ← (Program.op (E := Opens) (uncToOsPath path)).bind Program.ofExcept
  pure ((lastOf lastN allLines).map fun line => line.rdropWhile fun c => c == '\n' || c == '\r')

/-- `_format_evidence` -/
def formatEvidence (path : List Char) (lines : List (List Char)) (requested : Nat) : List Char :=
  let preview :=
    if lines = [] then "(empty)".toList else ['\n'].intercalate (lastOf 10 lines)
  "File: ".toList ++ path ++ "\nLines returned: ".toList ++ Nat.toDigits 10 lines.length ++
    " (requested last ".toList ++ Nat.toDigits 10 requested ++
    ")\n--- Last 10 lines ---\n".toList ++ preview

/-- The lines in which one of the texts between the bars stands. -/
def matching (pattern : List Char) (lines : List (List Char)) : List (List Char) :=
  let needles := (((pattern.splitOn '|').filter (· ≠ [])).map lower).take maxNeedles
  lines.filter fun line => needles.any fun needle => decide (needle <:+: lower line)

/-- `execute` -/
def execute (parameters : Parameters) : Program Opens OpenError AdapterResult :=
  let uncPath := parameters.uncPath
  let lastN := (max 1 (min parameters.lastNLines maxLines)).toNat
  if uncPath = [] then pure { success := false, error := "unc_path is required".toList }
  else
    let normalised := normpath (forward uncPath)
    if !isAllowed allowedUncPrefixes normalised then
      pure
        { success := false
          error := "Path ".toList ++ normalised ++
            " is not in the allowed UNC prefixes".toList }
    else
      Program.tryCatch
        (do
          let lines ← readFile normalised lastN
          let lines :=
            if parameters.pattern = [] then lines else matching lower parameters.pattern lines
          pure
            { success := true
              data := some (lines.length, normalised)
              rawOutput := ['\n'].intercalate lines
              evidenceSnippet := formatEvidence normalised lines lastN })
        fun exn => pure
          { success := false
            error := match exn with
              | .fileNotFound => "File not found: ".toList ++ normalised
              | .permission => "Permission denied: ".toList ++ normalised
              | .other text => text }

/-! ## What is read -/

/-- The prefix begins with two slashes or backslashes. -/
def Unc (pre : List Char) : Prop :=
  ∃ a b rest, pre = a :: b :: rest ∧ a ∈ ['/', '\\'] ∧ b ∈ ['/', '\\']

/-- Where what is below a prefix is mounted. -/
def mount (pre : List Char) : List Char := uncToOsPath (normpath (forward pre))

/-- The file is below the mount of a prefix, segment by segment, and its path has no parent
segment. -/
def Below (osPath : List Char) : Prop :=
  (∃ pre ∈ allowedUncPrefixes, segments (mount pre) <+: segments osPath) ∧
    ['.', '.'] ∉ osPath.splitOn '/'

theorem Unc.rooted {pre : List Char} (h : Unc pre) : Rooted (forward pre) := by
  obtain ⟨a, b, rest, rfl, ha, -⟩ := h
  rcases List.mem_pair.mp ha with rfl | rfl <;> rfl

theorem segments_uncToOsPath (path : List Char) :
    segments (uncToOsPath path) = "mnt".toList :: segments path := by
  show segments ('/' :: ("mnt".toList ++ '/' :: path.dropWhile (· == '/'))) = _
  rw [segments_slash, segments_append, segments_dropWhile]
  rfl

/-- Without the slashes at its end a path from the root is empty, or still begins there. -/
theorem rooted_rdropWhile {path : List Char} (h : Rooted path) :
    path.rdropWhile (· == '/') = [] ∨ Rooted (path.rdropWhile (· == '/')) := by
  rcases hbase : path.rdropWhile (· == '/') with _ | ⟨c, base⟩
  · exact .inl rfl
  · obtain ⟨rest, hrest⟩ := List.rdropWhile_prefix (· == '/') (l := path)
    rw [hbase] at hrest
    rw [← hrest] at h
    exact .inr h

/-- **What is accepted begins at the root, below a prefix.** -/
theorem isAllowed_below {path : List Char} (hunc : ∀ pre ∈ allowedUncPrefixes, Unc pre)
    (h : isAllowed allowedUncPrefixes path = true) :
    Rooted path ∧ ∃ pre ∈ allowedUncPrefixes,
      segments (normpath (forward pre)) <+: segments (normpath path) := by
  obtain ⟨pre', hpre', hmatch⟩ := List.any_eq_true.mp h
  obtain ⟨pre, hpre, rfl⟩ := List.mem_map.mp hpre'
  have hbase := rooted_rdropWhile (normpath_rooted (hunc pre hpre).rooted).1
  have hsegments := segments_rdropWhile (normpath (forward pre))
  generalize (normpath (forward pre)).rdropWhile (· == '/') = base at hmatch hbase hsegments
  rcases Bool.or_eq_true_iff.mp hmatch with heq | hbelow
  · have heq : normpath path = base := eq_of_beq heq
    have hrooted : Rooted (normpath path) := by
      rcases hbase with hnil | hrooted
      · exact absurd (heq.trans hnil) (normpath_ne_nil path)
      · rwa [heq]
    refine ⟨rooted_of_normpath hrooted, pre, hpre, ?_⟩
    rw [heq]
    exact ⟨[], by rw [List.append_nil, hsegments]⟩
  · obtain ⟨rest, hrest⟩ := List.isPrefixOf_iff_prefix.mp hbelow
    rw [List.append_assoc] at hrest
    have hrooted : Rooted (normpath path) := by
      rw [← hrest]
      rcases hbase with rfl | hrooted
      · rfl
      · unfold Rooted at hrooted ⊢
        rw [List.head?_append, hrooted]
        rfl
    refine ⟨rooted_of_normpath hrooted, pre, hpre, ?_⟩
    rw [← hrest, ← hsegments]
    show segments base <+: segments (base ++ '/' :: rest)
    rw [segments_append]
    exact List.prefix_append ..

/-- **What is read is below a prefix.**  Whatever path is asked for, with any mix of slashes, dots
and repeated separators, the file that is opened is at or below the mount of a prefix. -/
theorem reads_below_prefix (hunc : ∀ pre ∈ allowedUncPrefixes, Unc pre)
    (parameters : Parameters) :
    (execute lower allowedUncPrefixes parameters).Issues (Below allowedUncPrefixes) := by
  unfold execute
  extract_lets uncPath lastN normalised
  refine .ite (fun _ => True.intro) fun _ => .ite (fun _ => True.intro) fun hallowed => ?_
  refine .tryCatch ?_ fun exn => True.intro
  refine .bind (.bind (.bind ⟨?_, fun lines => True.intro⟩ Program.issues_ofExcept)
    fun lines => True.intro) fun lines => True.intro
  have hallowed : isAllowed allowedUncPrefixes normalised = true := by simpa using hallowed
  obtain ⟨hrooted, pre, hpre, hbelow⟩ := isAllowed_below allowedUncPrefixes hunc hallowed
  have hpath : Rooted (forward uncPath) := rooted_of_normpath hrooted
  refine ⟨⟨pre, hpre, ?_⟩, fun hparent => ?_⟩
  · -- Made normal twice, the path has the segments that it has made normal once.
    unfold mount
    rw [segments_uncToOsPath, segments_uncToOsPath, ← segments_normpath_normpath hpath]
    exact (List.cons_prefix_cons).mpr ⟨rfl, hbelow⟩
  · have hmem : ['.', '.'] ∈ segments (uncToOsPath normalised) :=
      List.mem_filter.mpr ⟨hparent, rfl⟩
    rw [segments_uncToOsPath] at hmem
    rcases List.mem_cons.mp hmem with heq | hmem
    · exact absurd heq (by decide)
    · exact (plain_normpath hpath _ hmem).ne_parent rfl

/-- A folder with the logs of a server, and a file in it that is spelled in another way. -/
theorem reads_below_prefix_logs :
    Unc "\\\\files\\logs".toList ∧
      isAllowed ["\\\\files\\logs".toList]
        (normpath (forward "//files\\logs/.//old/../today.log".toList)) = true ∧
      (execute id ["\\\\files\\logs".toList]
        { uncPath := "//files\\logs/.//old/../today.log".toList }).Issues
          (Below ["\\\\files\\logs".toList]) := by
  have hunc : Unc "\\\\files\\logs".toList :=
    ⟨'\\', '\\', "files\\logs".toList, rfl, by decide, by decide⟩
  refine ⟨hunc, by decide +kernel, reads_below_prefix id _ (fun pre hpre => ?_) _⟩
  rwa [List.mem_singleton.mp hpre]

end WindowsShare
end L1Agent
