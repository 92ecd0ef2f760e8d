import ChainGenesis.Proofs.FilePath

/-!
# What a path says

A path is read as components: the root, and then names. Two texts with the same components are one
path, and they may differ in the slashes and points between the names. The absolute form of a path
is such a text without them, so it has the same components as the path has below the working
directory, and if nothing is in between the names of the working directory either, it is its own
absolute form, to the letter.
-/

namespace ChainGenesis.FilePath

/-! ## Segments -/

/-- A slash between two texts stands between their segments. -/
theorem split_append_slash (front back : List Char) :
    split (front ++ '/' :: back) = split front ++ split back := by
  induction front with
  | nil => rfl
  | cons c rest ih =>
    obtain ⟨first, others, hs⟩ := List.exists_cons_of_ne_nil (split_ne_nil rest)
    rw [List.cons_append, split, ih, split, hs]
    by_cases hc : c = '/'
    · rw [if_pos hc, if_pos hc]
      rfl
    · rw [if_neg hc, if_neg hc]
      rfl

theorem split_of_not_mem {segment : List Char} (h : '/' ∉ segment) :
    split segment = [segment] := by
  induction segment with
  | nil => rfl
  | cons c rest ih =>
    obtain ⟨hc, hrest⟩ := not_or.mp (mt List.mem_cons.mpr h)
    rw [split, if_neg (Ne.symm hc), ih hrest]

theorem slash_not_mem_of_mem_split {path segment : List Char} (h : segment ∈ split path) :
    '/' ∉ segment := by
  induction path generalizing segment with
  | nil =>
    rw [List.mem_singleton.mp h]
    exact List.not_mem_nil
  | cons c rest ih =>
    obtain ⟨first, others, hs⟩ := List.exists_cons_of_ne_nil (split_ne_nil rest)
    rw [hs] at ih
    rw [split, hs] at h
    split at h
    · rcases List.mem_cons.mp h with rfl | hmem
      · exact List.not_mem_nil
      · exact ih hmem
    · rename_i hc
      rcases List.mem_cons.mp h with rfl | hmem
      · exact fun hslash => (List.mem_cons.mp hslash).elim (fun heq => hc heq.symm)
          (ih List.mem_cons_self)
      · exact ih (List.mem_cons_of_mem _ hmem)

/-! ## Names below a directory -/

/-- A text that a path can have as a name. -/
def CanName (name : List Char) : Prop := isName name = true ∧ '/' ∉ name

instance (name : List Char) : Decidable (CanName name) := inferInstanceAs (Decidable (_ ∧ _))

theorem canName_of_mem_names {path : String} {name : List Char} (h : name ∈ names path) :
    CanName name := by
  obtain ⟨hmem, hname⟩ := List.mem_filter.mp h
  exact ⟨hname, slash_not_mem_of_mem_split hmem⟩

theorem CanName.ne_nil {name : List Char} (h : CanName name) : name ≠ [] := by
  rintro rfl
  exact absurd h.1 (by decide)

theorem CanName.not_isAbsolute {name : List Char} (h : CanName name) :
    isAbsolute (String.ofList name) = false := by
  rw [isAbsolute, String.toList_ofList, decide_eq_false_iff_not]
  exact fun hhead => h.2 (List.mem_of_mem_head? hhead)

theorem isEmpty_of_isAbsolute {path : String} (h : isAbsolute path = true) :
    path.isEmpty = false := by
  refine eq_false_of_ne_true fun hempty => ?_
  rw [String.isEmpty_iff.mp hempty] at h
  exact absurd h (by decide)

/-- A name is written behind one slash. -/
theorem toList_join {directory : String} (h : isAbsolute directory = true) {name : List Char}
    (hname : CanName name) :
    (join directory (String.ofList name)).toList
      = directory.toList ++ ((if endsWithSlash directory then [] else ['/']) ++ name) := by
  rw [join, hname.not_isAbsolute, isEmpty_of_isAbsolute h, Bool.false_or]
  cases endsWithSlash directory <;> simp

/-- Joining a name to a directory adds one segment, in the place of an empty one at the end. -/
theorem split_join {directory : String} (h : isAbsolute directory = true) {name : List Char}
    (hname : CanName name) :
    ∃ segments, (split directory.toList = segments ∨ split directory.toList = segments ++ [[]])
      ∧ split (join directory (String.ofList name)).toList = segments ++ [name] := by
  rw [toList_join h hname]
  cases hends : endsWithSlash directory with
  | false =>
    refine ⟨split directory.toList, .inl rfl, ?_⟩
    rw [if_neg Bool.false_ne_true, List.singleton_append, split_append_slash,
      split_of_not_mem hname.2]
  | true =>
    rw [endsWithSlash, decide_eq_true_eq] at hends
    obtain ⟨front, hfront⟩ := List.getLast?_eq_some_iff.mp hends
    refine ⟨split front, .inr ?_, ?_⟩
    · rw [hfront, split_append_slash]
      rfl
    · rw [if_pos rfl, List.nil_append, hfront, List.append_assoc, List.singleton_append,
        split_append_slash, split_of_not_mem hname.2]

theorem names_join {directory : String} (h : isAbsolute directory = true) {name : List Char}
    (hname : CanName name) :
    names (join directory (String.ofList name)) = names directory ++ [name] := by
  obtain ⟨segments, hsegments, hjoin⟩ := split_join h hname
  have hnames : names directory = segments.filter isName := by
    rcases hsegments with hsegments | hsegments
    · rw [names, hsegments]
    · rw [names, hsegments, List.filter_append]
      exact List.append_nil _
  rw [hnames, names, hjoin, List.filter_append, List.filter_cons_of_pos hname.1]
  rfl

/-- A path begins with a pair of slashes if there is no third. -/
theorem rootText_eq (path : String) :
    rootText path = if path.toList.take 2 = ['/', '/'] ∧ path.toList.take 3 ≠ ['/', '/', '/']
      then "//" else "/" := by
  unfold rootText
  split
  case h_1 heq => rw [heq, if_neg fun h => h.2 rfl]
  case h_2 tail hthird heq =>
    have hthree : path.toList.take 3 ≠ ['/', '/', '/'] := by
      cases tail with
      | nil => simp [heq]
      | cons c rest => simpa [heq] using hthird
    rw [if_pos ⟨by rw [heq]; rfl, hthree⟩]
  case h_3 hpair =>
    refine (if_neg fun h => ?_).symm
    have hsplit := List.take_append_drop 2 path.toList
    rw [h.1] at hsplit
    exact hpair _ hsplit.symm

/-- What follows an absolute path does not change what it begins with, as long as the slashes at
its front do not become more. -/
theorem rootText_append {path rest : String} (h : isAbsolute path = true)
    (hslash : endsWithSlash path = true → rest.toList.head? ≠ some '/') :
    rootText (path ++ rest) = rootText path := by
  rw [isAbsolute, decide_eq_true_eq] at h
  rw [endsWithSlash, decide_eq_true_eq] at hslash
  rw [rootText_eq, rootText_eq, String.toList_append]
  generalize path.toList = front at *
  generalize rest.toList = back at *
  obtain ⟨front, rfl⟩ := List.head?_eq_some_iff.mp h
  -- the end of the path is in the way only if it is among the first two characters
  rcases front with _ | ⟨second, _ | ⟨third, front⟩⟩
  · cases back <;> simp_all
  · cases back with
    | nil => simp
    | cons third back => by_cases hsecond : second = '/' <;> simp_all
  · simp

theorem rootText_join {directory : String} (h : isAbsolute directory = true) {name : List Char}
    (hname : CanName name) :
    rootText (join directory (String.ofList name)) = rootText directory := by
  have hjoin : join directory (String.ofList name)
      = directory ++ String.ofList ((if endsWithSlash directory then [] else ['/']) ++ name) := by
    rw [← String.toList_inj, String.toList_append, String.toList_ofList, toList_join h hname]
  rw [hjoin]
  refine rootText_append h fun hends hhead => ?_
  rw [if_pos hends, List.nil_append, String.toList_ofList] at hhead
  exact hname.2 (List.mem_of_mem_head? hhead)

/-- Names joined below a directory, one after the other. -/
def below (directory : String) (names : List (List Char)) : String :=
  names.foldl (fun text name => join text (String.ofList name)) directory

/-- A path with a slash at its end, if it is to have one. -/
def closed (path : String) (slash : Bool) : String :=
  if slash && !endsWithSlash path then path ++ "/" else path

theorem rejoin_eq (directory path : String) :
    rejoin directory path = closed (below directory (names path)) (endsWithSlash path) := rfl

theorem below_append (directory : String) (upper lower : List (List Char)) :
    below directory (upper ++ lower) = below (below directory upper) lower :=
  List.foldl_append

theorem isAbsolute_below {directory : String} (h : isAbsolute directory = true)
    (lower : List (List Char)) : isAbsolute (below directory lower) = true :=
  isAbsolute_foldl String.ofList lower h

section

variable {directory : String} {lower : List (List Char)}

theorem names_below (h : isAbsolute directory = true) (hlower : ∀ name ∈ lower, CanName name) :
    names (below directory lower) = names directory ++ lower := by
  induction lower generalizing directory with
  | nil => exact (List.append_nil _).symm
  | cons name rest ih =>
    obtain ⟨hname, hrest⟩ := List.forall_mem_cons.mp hlower
    show names (below (join directory (String.ofList name)) rest) = _
    rw [ih (isAbsolute_join h _) hrest, names_join h hname, List.append_assoc]
    rfl

theorem rootText_below (h : isAbsolute directory = true) (hlower : ∀ name ∈ lower, CanName name) :
    rootText (below directory lower) = rootText directory := by
  induction lower generalizing directory with
  | nil => rfl
  | cons name rest ih =>
    obtain ⟨hname, hrest⟩ := List.forall_mem_cons.mp hlower
    exact (ih (isAbsolute_join h _) hrest).trans (rootText_join h hname)

/-- A point is no name, so it is not among what names bring. -/
theorem point_mem_split_of_below (h : isAbsolute directory = true)
    (hlower : ∀ name ∈ lower, CanName name) (hmem : ['.'] ∈ split (below directory lower).toList) :
    ['.'] ∈ split directory.toList := by
  induction lower generalizing directory with
  | nil => exact hmem
  | cons name rest ih =>
    obtain ⟨hname, hrest⟩ := List.forall_mem_cons.mp hlower
    have hjoined := ih (isAbsolute_join h _) hrest hmem
    obtain ⟨segments, hsegments, hjoin⟩ := split_join h hname
    rw [hjoin] at hjoined
    have hpoint : ['.'] ∈ segments := by
      refine (List.mem_append.mp hjoined).resolve_right fun hname' => ?_
      have hnot := hname.1
      rw [← List.mem_singleton.mp hname'] at hnot
      exact absurd hnot (by decide)
    rcases hsegments with hsegments | hsegments
    · exact hsegments ▸ hpoint
    · exact hsegments ▸ List.mem_append_left _ hpoint

end

/-! ## A slash at the end -/

theorem closed_of_endsWithSlash {path : String} (h : endsWithSlash path = true) (slash : Bool) :
    closed path slash = path := by
  rw [closed, h, Bool.not_true, Bool.and_false, if_neg Bool.false_ne_true]

theorem closed_true {path : String} (h : endsWithSlash path = false) :
    closed path true = path ++ "/" := by
  rw [closed, h]
  rfl

theorem closed_false (path : String) : closed path false = path := rfl

theorem endsWithSlash_append_slash (path : String) : endsWithSlash (path ++ "/") = true := by
  rw [endsWithSlash, String.toList_append, decide_eq_true_eq]
  exact List.getLast?_concat

/-- A path that is closed already stays as it is. -/
theorem closed_closed (path : String) (slash : Bool) :
    closed path (endsWithSlash (closed path slash)) = closed path slash := by
  cases hends : endsWithSlash path with
  | true => rw [closed_of_endsWithSlash hends, closed_of_endsWithSlash hends]
  | false =>
    cases slash with
    | false => rw [closed_false, hends, closed_false]
    | true => rw [closed_true hends, endsWithSlash_append_slash, closed_true hends]

theorem names_closed (path : String) (slash : Bool) : names (closed path slash) = names path := by
  rw [closed]
  split
  · rw [names, String.toList_append]
    show (split (path.toList ++ '/' :: [])).filter isName = _
    rw [split_append_slash, List.filter_append]
    exact List.append_nil _
  · rfl

theorem rootText_closed {path : String} (h : isAbsolute path = true) (slash : Bool) :
    rootText (closed path slash) = rootText path := by
  rw [closed]
  split
  case isTrue hopen =>
    have hends : endsWithSlash path = false := by simpa using (Bool.and_eq_true_iff.mp hopen).2
    exact rootText_append h fun htrue => absurd (hends.symm.trans htrue) Bool.false_ne_true
  case isFalse => rfl

theorem point_mem_split_of_closed {path : String} {slash : Bool}
    (h : ['.'] ∈ split (closed path slash).toList) : ['.'] ∈ split path.toList := by
  rw [closed] at h
  split at h
  · rw [String.toList_append] at h
    replace h : ['.'] ∈ split (path.toList ++ '/' :: []) := h
    rw [split_append_slash] at h
    exact (List.mem_append.mp h).resolve_right (by decide)
  · exact h

/-! ## Names joined again -/

section

variable {directory : String} (path : String)

theorem names_rejoin (h : isAbsolute directory = true) :
    names (rejoin directory path) = names directory ++ names path := by
  rw [rejoin_eq, names_closed, names_below h fun _ => canName_of_mem_names]

theorem rootText_rejoin (h : isAbsolute directory = true) :
    rootText (rejoin directory path) = rootText directory := by
  rw [rejoin_eq, rootText_closed (isAbsolute_below h _),
    rootText_below h fun _ => canName_of_mem_names]

theorem point_mem_split_of_rejoin (h : isAbsolute directory = true)
    (hmem : ['.'] ∈ split (rejoin directory path).toList) : ['.'] ∈ split directory.toList := by
  rw [rejoin_eq] at hmem
  exact point_mem_split_of_below h (fun _ => canName_of_mem_names)
    (point_mem_split_of_closed hmem)

end

/-! ## Tidy paths -/

/-- A path that is written as one slash or a pair of them, and names behind single slashes. -/
def IsTidy (path : String) : Prop :=
  ∃ root lower, (root = "/" ∨ root = "//") ∧ (∀ name ∈ lower, CanName name)
    ∧ path = below root lower

theorem rootText_eq_or (path : String) : rootText path = "/" ∨ rootText path = "//" := by
  rw [rootText_eq]
  split
  · exact .inr rfl
  · exact .inl rfl

theorem isTidy_rootText (path : String) : IsTidy (rootText path) :=
  ⟨rootText path, [], rootText_eq_or path, fun _ h => absurd h List.not_mem_nil, rfl⟩

/-- The working directory of a file system has a tidy path. -/
theorem isTidy_workingPath {fs : FileSystem}
    (h : ∀ name ∈ fs.workingDirectory, CanName name.toList) : IsTidy fs.workingPath := by
  refine ⟨"/", fs.workingDirectory.map String.toList, .inl rfl, List.forall_mem_map.mpr h, ?_⟩
  rw [below, List.foldl_map, FileSystem.workingPath]
  simp only [String.ofList_toList]

theorem point_not_mem_split_rootText (path : String) : ['.'] ∉ split (rootText path).toList := by
  rcases rootText_eq_or path with h | h <;> rw [h] <;> decide

theorem names_rootText (path : String) : names (rootText path) = [] := by
  rcases rootText_eq_or path with h | h <;> rw [h] <;> decide

/-- A tidy path is what it begins with and its names, and nothing between them. -/
theorem IsTidy.below_eq {path : String} (h : IsTidy path) :
    below (rootText path) (names path) = path := by
  obtain ⟨root, lower, hroot, hlower, rfl⟩ := h
  have habsolute : isAbsolute root = true := by rcases hroot with rfl | rfl <;> decide
  have hnames : names root = [] := by rcases hroot with rfl | rfl <;> decide
  have htext : rootText root = root := by rcases hroot with rfl | rfl <;> decide
  rw [rootText_below habsolute hlower, names_below habsolute hlower, hnames, htext, List.nil_append]

/-- **Below a tidy directory, joining the names of a path again changes nothing.** -/
theorem rejoin_rejoin {directory : String} (h : isAbsolute directory = true)
    (htidy : IsTidy directory) (path : String) :
    rejoin (rootText (rejoin directory path)) (rejoin directory path) = rejoin directory path := by
  have hbelow : below (rootText directory) (names directory ++ names path)
      = below directory (names path) := by
    rw [below_append, htidy.below_eq]
  rw [rejoin_eq (rootText _), rootText_rejoin path h, names_rejoin path h, hbelow, rejoin_eq,
    closed_closed]

/-! ## Components -/

/-- What a path is read as, part by part. `..` is a name. -/
inductive Component where
  | root
  /-- A point, which is read at the front of a relative path only. -/
  | here
  | name (text : List Char)
  deriving DecidableEq

/-- The components of a path. Texts with the same components are the same path. -/
def components (path : String) : List Component :=
  (if isAbsolute path then [.root]
    else if (split path.toList).head? = some ['.'] then [.here] else [])
  ++ (names path).map .name

theorem components_of_isAbsolute {path : String} (h : isAbsolute path = true) :
    components path = .root :: (names path).map .name := by
  rw [components, if_pos h]
  rfl

/-- An absolute path has no point among its components. -/
theorem here_not_mem_components {path : String} (h : isAbsolute path = true) :
    Component.here ∉ components path := by
  rw [components_of_isAbsolute h]
  simp

/-! ## The absolute form -/

section

variable {directory path result : String}

/-- Only the empty path has no absolute form. -/
theorem absolute?_eq_none_iff : absolute? directory path = none ↔ path = "" := by
  rw [absolute?, ← String.isEmpty_iff]
  split
  · exact ⟨fun _ => ‹_›, fun _ => rfl⟩
  · refine ⟨fun h => ?_, fun h => absurd h ‹_›⟩
    split at h <;> cases h

theorem absolute?_of_isAbsolute (h : isAbsolute path = true) :
    absolute? directory path = some (rejoin (rootText path) path) := by
  rw [absolute?, isEmpty_of_isAbsolute h, if_neg Bool.false_ne_true, if_pos h]

/-- An absolute form is written below what the path begins with, or below the working directory. -/
theorem exists_of_absolute? (h : absolute? directory path = some result) :
    ∃ base, base = (if isAbsolute path then rootText path else directory)
      ∧ result = rejoin base path := by
  rw [absolute?] at h
  split at h
  · cases h
  · split at h <;> injection h with h
    case isTrue hpath => exact ⟨_, (if_pos hpath).symm, h.symm⟩
    case isFalse hpath => exact ⟨_, (if_neg hpath).symm, h.symm⟩

/-- **The absolute form has the names of the path, and before them those of the working directory
if the path is relative.** -/
theorem components_of_absolute? (hdirectory : isAbsolute directory = true)
    (h : absolute? directory path = some result) :
    components result = .root
      :: ((if isAbsolute path then [] else names directory) ++ names path).map .name := by
  rw [components_of_isAbsolute (isAbsolute_of_absolute? hdirectory h)]
  obtain ⟨base, hbase, rfl⟩ := exists_of_absolute? h
  by_cases hpath : isAbsolute path = true
  · rw [if_pos hpath] at hbase ⊢
    rw [hbase, names_rejoin path (isAbsolute_rootText path), names_rootText]
  · rw [if_neg hpath] at hbase ⊢
    rw [hbase, names_rejoin path hdirectory]

/-- A point in the absolute form comes from the working directory. -/
theorem point_mem_split_of_absolute? (hdirectory : isAbsolute directory = true)
    (h : absolute? directory path = some result) (hmem : ['.'] ∈ split result.toList) :
    ['.'] ∈ split directory.toList := by
  obtain ⟨base, hbase, rfl⟩ := exists_of_absolute? h
  split at hbase <;> subst hbase
  · exact absurd (point_mem_split_of_rejoin path (isAbsolute_rootText path) hmem)
      (point_not_mem_split_rootText path)
  · exact point_mem_split_of_rejoin path hdirectory hmem

/-- **The absolute form of an absolute path is the same path.** -/
theorem components_rejoin_rootText (hpath : isAbsolute path = true) :
    components (rejoin (rootText path) path) = components path := by
  have hroot := isAbsolute_rootText path
  rw [components_of_isAbsolute (isAbsolute_rejoin hroot path), components_of_isAbsolute hpath,
    names_rejoin path hroot, names_rootText, List.nil_append]

/-- **The absolute form below a tidy directory is its own absolute form.** -/
theorem absolute?_absolute? (hdirectory : isAbsolute directory = true) (htidy : IsTidy directory)
    (h : absolute? directory path = some result) (other : String) :
    absolute? other result = some result := by
  rw [absolute?_of_isAbsolute (isAbsolute_of_absolute? hdirectory h)]
  obtain ⟨base, hbase, rfl⟩ := exists_of_absolute? h
  split at hbase <;> subst hbase
  · rw [rejoin_rejoin (isAbsolute_rootText path) (isTidy_rootText path)]
  · rw [rejoin_rejoin hdirectory htidy]

-- below a directory that is not tidy, the absolute form can lose a slash once more
example : absolute? "/home//work" "x" = some "/home//work/x"
    ∧ absolute? "/" "/home//work/x" = some "/home/work/x" := by decide

end

end ChainGenesis.FilePath
