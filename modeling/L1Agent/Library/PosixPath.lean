import Mathlib.Data.List.DropRight

/-! # POSIX paths as texts

`posixpath.normpath` reads a path from left to right: empty and `.` segments go, and `..` takes the
segment before it away.  At the root there is none to take, so a normal path from the root has no
`..`, and to make it normal again changes none of its segments.

`normpath_rooted` and `plain_normpath` say so; with them a path that begins with a directory's
own segments after it is made normal stays below that directory.
-/
namespace PosixPath

/-- The segments of a path; what stands between two slashes in a row is none. -/
def segments (path : List Char) : List (List Char) := (path.splitOn '/').filter (· ≠ [])

/-- The path begins at the root. -/
def Rooted (path : List Char) : Prop := path.head? = some '/'

instance (path : List Char) : Decidable (Rooted path) :=
  inferInstanceAs (Decidable (_ = _))

/-- How many slashes a path keeps at its beginning: two are kept, more are not. -/
def slashes : List Char → Nat
  | '/' :: '/' :: '/' :: _ => 1
  | '/' :: '/' :: _ => 2
  | '/' :: _ => 1
  | _ => 0

/-- One segment more, on those that are kept, the last of which comes first. -/
def push (rooted : Bool) (kept : List (List Char)) (segment : List Char) : List (List Char) :=
  if segment = [] ∨ segment = ['.'] then kept
  else if segment ≠ ['.', '.'] ∨ (rooted = false ∧ kept = []) ∨ kept.head? = some ['.', '.'] then
    segment :: kept
  else kept.tail

/-- The segments that a path keeps. -/
def resolve (rooted : Bool) (segments : List (List Char)) : List (List Char) :=
  (segments.foldl (push rooted) []).reverse

/-- `posixpath.normpath` -/
def normpath (path : List Char) : List Char :=
  let out := List.replicate (slashes path) '/' ++
    ['/'].intercalate (resolve (decide (slashes path ≠ 0)) (path.splitOn '/'))
  if out = [] then ['.'] else out

/-! ### Segments -/

theorem segments_append (left right : List Char) :
    segments (left ++ '/' :: right) = segments left ++ segments right := by
  unfold segments
  rw [List.splitOn_append_cons_self, List.filter_append]

theorem segments_slash (path : List Char) : segments ('/' :: path) = segments path :=
  segments_append [] path

/-- Slashes at the beginning are no segments. -/
theorem segments_dropWhile (path : List Char) :
    segments (path.dropWhile (· == '/')) = segments path := by
  induction path with
  | nil => rfl
  | cons c path ih =>
    by_cases hc : c = '/'
    · subst hc
      rw [List.dropWhile_cons_of_pos rfl, segments_slash, ih]
    · rw [List.dropWhile_cons_of_neg (by simpa using hc)]

/-- Nor are those at the end. -/
theorem segments_rdropWhile (path : List Char) :
    segments (path.rdropWhile (· == '/')) = segments path := by
  induction path using List.reverseRecOn with
  | nil => rfl
  | append_singleton path c ih =>
    by_cases hc : c = '/'
    · subst hc
      rw [List.rdropWhile_concat_pos _ _ _ rfl, ih, segments_append]
      exact (List.append_nil _).symm
    · rw [List.rdropWhile_concat_neg _ _ _ (by simpa using hc)]

theorem segments_replicate (n : Nat) (path : List Char) :
    segments (List.replicate n '/' ++ path) = segments path := by
  induction n with
  | zero => rfl
  | succ n ih =>
    rw [List.replicate_succ, List.cons_append, segments_slash, ih]

/-- Segments that are put together are read again. -/
theorem segments_intercalate {parts : List (List Char)} (hne : ∀ s ∈ parts, s ≠ [])
    (hslash : ∀ s ∈ parts, '/' ∉ s) : segments (['/'].intercalate parts) = parts := by
  by_cases hnil : parts = []
  · subst hnil
    rfl
  · unfold segments
    rw [List.splitOn_intercalate '/' hslash hnil, List.filter_eq_self]
    intro s hs
    exact decide_eq_true (hne s hs)

/-- No segment has a slash in it. -/
theorem slash_notMem_of_mem {path segment : List Char} (h : segment ∈ path.splitOn '/') :
    '/' ∉ segment := by
  induction path generalizing segment with
  | nil =>
    obtain rfl : segment = [] := by simpa using h
    exact List.not_mem_nil
  | cons c path ih =>
    rw [List.splitOn_cons_eq_if_modifyHead] at h
    by_cases hc : c = '/'
    · rw [if_pos (by simpa using hc)] at h
      rcases List.mem_cons.mp h with rfl | h
      · exact List.not_mem_nil
      · exact ih h
    · rw [if_neg (by simpa using hc)] at h
      obtain ⟨first, parts, hparts⟩ := List.exists_cons_of_ne_nil (List.splitOn_ne_nil '/' path)
      rw [hparts] at h
      rcases List.mem_cons.mp h with rfl | h
      · intro hmem
        rcases List.mem_cons.mp hmem with rfl | hmem
        · exact hc rfl
        · exact ih (hparts ▸ List.mem_cons_self ..) hmem
      · exact ih (hparts ▸ List.mem_cons_of_mem _ h)

/-! ### What is kept -/

/-- A segment that a normal path from the root may have. -/
structure Plain (segment : List Char) : Prop where
  ne_nil : segment ≠ []
  ne_dot : segment ≠ ['.']
  ne_parent : segment ≠ ['.', '.']
  slash : '/' ∉ segment

/-- From the root only plain segments are kept. -/
theorem plain_push {kept : List (List Char)} {segment : List Char} (hkept : ∀ s ∈ kept, Plain s)
    (hslash : '/' ∉ segment) : ∀ s ∈ push true kept segment, Plain s := by
  intro s hs
  unfold push at hs
  by_cases hempty : segment = [] ∨ segment = ['.']
  · rw [if_pos hempty] at hs
    exact hkept s hs
  rw [if_neg hempty] at hs
  have hlast : kept.head? ≠ some ['.', '.'] := fun hhead =>
    (hkept _ (List.mem_of_mem_head? hhead)).ne_parent rfl
  by_cases hparent : segment = ['.', '.']
  · rw [if_neg (by simp [hparent, hlast])] at hs
    exact hkept s (List.mem_of_mem_tail hs)
  · rw [if_pos (.inl hparent)] at hs
    rcases List.mem_cons.mp hs with rfl | hs
    · exact ⟨fun h => hempty (.inl h), fun h => hempty (.inr h), hparent, hslash⟩
    · exact hkept s hs

theorem plain_resolve {parts : List (List Char)} (hslash : ∀ s ∈ parts, '/' ∉ s) :
    ∀ s ∈ resolve true parts, Plain s := by
  intro s hs
  have hfold : ∀ kept : List (List Char), (∀ s ∈ kept, Plain s) →
      ∀ s ∈ parts.foldl (push true) kept, Plain s := by
    clear hs
    induction parts with
    | nil => exact fun kept hkept => hkept
    | cons part parts ih =>
      intro kept hkept
      exact ih (fun s hs => hslash s (List.mem_cons_of_mem _ hs)) _
        (plain_push hkept (hslash part (List.mem_cons_self ..)))
  exact hfold [] (fun s hs => nomatch hs) s (List.mem_reverse.mp hs)

/-- Plain segments are kept as they are. -/
theorem resolve_plain {rooted : Bool} {parts : List (List Char)} (h : ∀ s ∈ parts, Plain s) :
    resolve rooted parts = parts := by
  have hfold : ∀ kept, parts.foldl (push rooted) kept = parts.reverse ++ kept := by
    induction parts with
    | nil => exact fun kept => rfl
    | cons part parts ih =>
      intro kept
      have hpart := h part (List.mem_cons_self ..)
      have hpush : push rooted kept part = part :: kept := by
        unfold push
        rw [if_neg (by simp [hpart.ne_nil, hpart.ne_dot]), if_pos (.inl hpart.ne_parent)]
      rw [List.foldl_cons, hpush, ih fun s hs => h s (List.mem_cons_of_mem _ hs),
        List.reverse_cons, List.append_assoc]
      rfl
  unfold resolve
  rw [hfold, List.append_nil, List.reverse_reverse]

/-- Only segments of the path are kept, and no empty one. -/
theorem mem_resolve {rooted : Bool} {parts : List (List Char)} {segment : List Char}
    (h : segment ∈ resolve rooted parts) : segment ∈ parts ∧ segment ≠ [] := by
  have hfold : ∀ kept, segment ∈ parts.foldl (push rooted) kept →
      segment ∈ kept ∨ (segment ∈ parts ∧ segment ≠ []) := by
    clear h
    induction parts with
    | nil => exact fun kept h => .inl h
    | cons part parts ih =>
      intro kept h
      rcases ih _ h with h | ⟨hmem, hne⟩
      · unfold push at h
        by_cases hempty : part = [] ∨ part = ['.']
        · rw [if_pos hempty] at h
          exact .inl h
        rw [if_neg hempty] at h
        split at h
        · rcases List.mem_cons.mp h with rfl | h
          · exact .inr ⟨List.mem_cons_self .., fun hnil => hempty (.inl hnil)⟩
          · exact .inl h
        · exact .inl (List.mem_of_mem_tail h)
      · exact .inr ⟨List.mem_cons_of_mem _ hmem, hne⟩
  rcases hfold [] (List.mem_reverse.mp h) with h | h
  · cases h
  · exact h

/-- Empty segments count for nothing. -/
theorem resolve_filter (rooted : Bool) (parts : List (List Char)) :
    resolve rooted (parts.filter (· ≠ [])) = resolve rooted parts := by
  have hfold : ∀ kept, (parts.filter (· ≠ [])).foldl (push rooted) kept =
      parts.foldl (push rooted) kept := by
    induction parts with
    | nil => exact fun kept => rfl
    | cons part parts ih =>
      intro kept
      by_cases hpart : part = []
      · subst hpart
        rw [List.filter_cons_of_neg (by simp), ih]
        rfl
      · rw [List.filter_cons_of_pos (by simpa using hpart), List.foldl_cons, ih, List.foldl_cons]
  unfold resolve
  rw [hfold]

/-! ### Normal paths -/

theorem slashes_pos {path : List Char} : slashes path ≠ 0 ↔ Rooted path := by
  unfold slashes Rooted
  split
  · simp
  · simp
  · simp
  · rename_i hnone
    rcases path with _ | ⟨c, path⟩
    · simp
    · have hc : c ≠ '/' := fun hc => hnone path (hc ▸ rfl)
      simp [hc]

theorem normpath_ne_nil (path : List Char) : normpath path ≠ [] := by
  unfold normpath
  extract_lets out
  by_cases hout : out = []
  · rw [if_pos hout]
    exact List.cons_ne_nil _ _
  · rw [if_neg hout]
    exact hout

/-- **A path from the root stays one**, with the segments that it keeps. -/
theorem normpath_rooted {path : List Char} (h : Rooted path) :
    Rooted (normpath path) ∧ segments (normpath path) = resolve true (segments path) := by
  have hpos := slashes_pos.mpr h
  have hplain := @plain_resolve (path.splitOn '/') fun s hs => slash_notMem_of_mem hs
  have hout : normpath path = List.replicate (slashes path) '/' ++
      ['/'].intercalate (resolve true (path.splitOn '/')) := by
    unfold normpath
    rw [decide_eq_true hpos]
    refine if_neg fun hnil => hpos ?_
    simpa using (List.append_eq_nil_iff.mp hnil).1
  rw [hout]
  refine ⟨?_, ?_⟩
  · obtain ⟨n, hn⟩ := Nat.exists_eq_succ_of_ne_zero hpos
    rw [hn, List.replicate_succ]
    rfl
  · rw [segments_replicate, segments_intercalate (fun s hs => (hplain s hs).ne_nil)
      fun s hs => (hplain s hs).slash]
    exact (resolve_filter true _).symm

/-- **A normal path from the root has no parent segment.** -/
theorem plain_normpath {path : List Char} (h : Rooted path) :
    ∀ s ∈ segments (normpath path), Plain s := by
  rw [(normpath_rooted h).2]
  exact plain_resolve fun s hs => slash_notMem_of_mem (List.mem_of_mem_filter hs)

/-- To make a path normal again changes no segment of it. -/
theorem segments_normpath_normpath {path : List Char} (h : Rooted path) :
    segments (normpath (normpath path)) = segments (normpath path) := by
  rw [(normpath_rooted (normpath_rooted h).1).2]
  exact resolve_plain (plain_normpath h)

/-- What begins at the root when it is normal began there before. -/
theorem rooted_of_normpath {path : List Char} (h : Rooted (normpath path)) : Rooted path := by
  by_contra hpath
  have hzero : slashes path = 0 := by
    by_contra hpos
    exact hpath (slashes_pos.mp hpos)
  unfold normpath Rooted at h
  rw [hzero, List.replicate_zero, List.nil_append] at h
  match hparts : resolve (decide (0 ≠ 0)) (path.splitOn '/') with
  | [] =>
    rw [hparts] at h
    exact absurd h (by decide)
  | part :: parts =>
    obtain ⟨hmem, hne⟩ := mem_resolve (hparts ▸ List.mem_cons_self ..)
    obtain ⟨c, rest, rfl⟩ := List.exists_cons_of_ne_nil hne
    have hhead : ∃ rest', ['/'].intercalate ((c :: rest) :: parts) = c :: rest' := by
      rcases parts with _ | ⟨part, parts⟩
      · exact ⟨rest, List.intercalate_singleton⟩
      · exact ⟨_, List.intercalate_cons_cons⟩
    obtain ⟨rest', hrest'⟩ := hhead
    rw [hparts, hrest'] at h
    obtain rfl : c = '/' := Option.some.inj h
    exact slash_notMem_of_mem hmem (List.mem_cons_self ..)

end PosixPath
