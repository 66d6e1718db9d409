import SourceSearch.FileTree.Resolve

/-!
# Paths that go on by plain names

A plain name is one step of a path: it is not empty, it holds no slash, and it is neither `.` nor
`..`.  A path that goes on by plain names has the steps of its front and then those names, and the
path above it is the one without the last name.
-/

namespace SourceSearch

/-- A name that is one step of a path. -/
structure IsPlain (name : String) : Prop where
  /-- There are characters. -/
  notEmpty : name ≠ ""
  /-- It is not the folder itself. -/
  notHere : name ≠ "."
  /-- It is not the folder above. -/
  notUp : name ≠ ".."
  /-- No character separates steps. -/
  noSlash : '/' ∉ name.toList

theorem IsPlain.toList_ne_nil {name : String} (plain : IsPlain name) : name.toList ≠ [] :=
  fun empty => plain.notEmpty (String.toList_eq_nil_iff.mp empty)

/-- A suffix of file names: a dot with at least two more characters. -/
structure IsSuffix (suffix : String) : Prop where
  /-- A dot ends the stem. -/
  dot : ∃ rest, suffix.toList = '.' :: rest
  /-- The name goes on. -/
  wide : 3 ≤ suffix.length
  /-- The name is one step. -/
  noSlash : '/' ∉ suffix.toList

theorem IsSuffix.isPlain_append {suffix stem : String} (proper : IsSuffix suffix)
    (noSlash : '/' ∉ stem.toList) : IsPlain (stem ++ suffix) := by
  have long : 3 ≤ (stem ++ suffix).length := by
    rw [String.length_append]
    exact Nat.le_trans proper.wide (Nat.le_add_left _ _)
  refine ⟨?_, ?_, ?_, fun slash => ?_⟩
  · exact fun eq => absurd (eq ▸ long) (by decide)
  · exact fun eq => absurd (eq ▸ long) (by decide)
  · exact fun eq => absurd (eq ▸ long) (by decide)
  · rcases List.mem_append.mp (String.toList_append ▸ slash) with slash | slash
    · exact noSlash slash
    · exact proper.noSlash slash

namespace Path

/-- The names of a path between its slashes. -/
def names (path : Path) : List String := path.pieces.filter (· ≠ "")

/-- The path that goes on by names. -/
def below (path : Path) (names : List String) : Path := names.foldl Path.join path

@[simp]
theorem below_nil (path : Path) : path.below [] = path := rfl

@[simp]
theorem below_cons (path : Path) (name : String) (names : List String) :
    path.below (name :: names) = (path / name).below names := rfl

theorem below_snoc (path : Path) (names : List String) (name : String) :
    path.below (names ++ [name]) = path.below names / name := by
  rw [below, below, List.foldl_append]
  rfl

theorem ext_text {a b : Path} (same : a.text = b.text) : a = b := by
  cases a
  cases b
  simp_all

/-! ## One more name -/

theorem not_isAbsolute_append {name : String} (plain : IsPlain name) (rest : String) :
    (⟨name ++ rest⟩ : Path).isAbsolute = false := by
  rw [isAbsolute, beq_eq_false_iff_ne]
  intro first
  rw [String.toList_append, List.head?_append, List.head?_eq_some_head plain.toList_ne_nil] at first
  exact plain.noSlash (Option.some.inj first ▸ List.head_mem plain.toList_ne_nil)

theorem not_isAbsolute_of_plain {name : String} (plain : IsPlain name) :
    (⟨name⟩ : Path).isAbsolute = false := by
  rw [← String.append_empty (s := name)]
  exact not_isAbsolute_append plain ""

theorem join_text_of_relative {path : Path} {addition : String}
    (relative : (⟨addition⟩ : Path).isAbsolute = false) :
    (path / addition).text =
      if path.text = "" ∨ path.text.toList.getLast? = some '/' then path.text ++ addition
      else path.text ++ "/" ++ addition := by
  change (path.join addition).text = _
  rw [join]
  simp only [relative, Bool.false_eq_true, if_false]
  split <;> rfl

theorem join_text {path : Path} {name : String} (plain : IsPlain name) :
    (path / name).text =
      if path.text = "" ∨ path.text.toList.getLast? = some '/' then path.text ++ name
      else path.text ++ "/" ++ name :=
  join_text_of_relative (not_isAbsolute_of_plain plain)

/-- The pieces of a path that goes on by a name: an empty piece at its end gives way. -/
theorem pieces_join (path : Path) {name : String} (plain : IsPlain name) :
    ∃ front, (path / name).pieces = front ++ [name] ∧
      (path.pieces = front ∨ path.pieces = front ++ [""]) := by
  have single : name.toList.splitOn '/' = [name.toList] := List.splitOn_eq_singleton plain.noSlash
  rw [pieces, pieces, join_text plain]
  by_cases empty : path.text = ""
  · exact ⟨[], by simp [empty, single]⟩
  by_cases slash : path.text.toList.getLast? = some '/'
  · obtain ⟨front, text⟩ := List.getLast?_eq_some_iff.mp slash
    rw [if_pos (.inr slash), String.toList_append, text, List.append_assoc, List.singleton_append,
      List.splitOn_append_cons_self, List.splitOn_append_cons_self, single]
    exact ⟨(front.splitOn '/').map String.ofList, by simp⟩
  · rw [if_neg (by simp [empty, slash]), String.toList_append, String.toList_append,
      List.append_assoc]
    change ∃ front, ((path.text.toList ++ '/' :: name.toList).splitOn '/').map _ = _ ∧ _
    rw [List.splitOn_append_cons_self, single]
    exact ⟨(path.text.toList.splitOn '/').map String.ofList, by simp⟩

theorem names_join (path : Path) {name : String} (plain : IsPlain name) :
    (path / name).names = path.names ++ [name] := by
  obtain ⟨front, joined, above | above⟩ := pieces_join path plain
  · simp [names, joined, above, plain.notEmpty]
  · simp [names, joined, above, plain.notEmpty]

theorem getLast?_join {path : Path} {name : String} (plain : IsPlain name) :
    (path / name).text.toList.getLast? = name.toList.getLast? := by
  have last := List.getLast?_eq_some_getLast plain.toList_ne_nil
  rw [join_text plain]
  split
  · rw [String.toList_append, List.getLast?_append, last, Option.some_or]
  · rw [String.toList_append, List.getLast?_append, last, Option.some_or]

theorem getLast?_ne_slash {name : String} (plain : IsPlain name) :
    name.toList.getLast? ≠ some '/' := fun slash => plain.noSlash (List.mem_of_getLast? slash)

theorem steps_join (path : Path) {name : String} (plain : IsPlain name) :
    (path / name).steps = path.names ++ [name] := by
  rw [steps, getLast?_join plain, if_neg (getLast?_ne_slash plain)]
  exact names_join path plain

theorem steps_eq (path : Path) : path.steps = path.names ∨ path.steps = path.names ++ ["."] := by
  rw [steps]
  split
  · exact .inr rfl
  · exact .inl rfl

theorem join_text_ne_empty {path : Path} {name : String} (plain : IsPlain name) :
    (path / name).text ≠ "" := by
  rw [join_text plain]
  split <;> simp [plain.notEmpty]

theorem isAbsolute_join {path : Path} {name : String} (plain : IsPlain name)
    (given : path.text ≠ "") : (path / name).isAbsolute = path.isAbsolute := by
  have nonempty : path.text.toList ≠ [] := fun empty => given (String.toList_eq_nil_iff.mp empty)
  rw [isAbsolute, isAbsolute, join_text plain]
  split <;> simp [List.head?_append, List.head?_eq_some_head nonempty]

theorem withSuffix_join (path : Path) {name suffix : String} (plain : IsPlain name)
    (longer : IsPlain (name ++ suffix)) :
    (path / name).withSuffix suffix = path / (name ++ suffix) := by
  refine ext_text ?_
  rw [withSuffix, join_text plain, join_text longer]
  split <;> simp [String.append_assoc]

/-- A suffix of the empty name is a name of its own. -/
theorem withSuffix_join_empty (path : Path) {suffix : String} (plain : IsPlain suffix) :
    (path / "").withSuffix suffix = path / suffix := by
  refine ext_text ?_
  have joined : (path / "").text =
      if path.text = "" ∨ path.text.toList.getLast? = some '/' then path.text
      else path.text ++ "/" := by
    change (path.join "").text = _
    rw [join, if_neg (by decide)]
    split <;> simp
  rw [withSuffix, joined, join_text plain]
  split <;> rfl

/-! ## The path above -/

theorem dropIdle_concat {piece : String} (busy : isIdle piece = false) (pieces : List String) :
    dropIdle (pieces ++ [piece]) = pieces ++ [piece] := by
  cases pieces with
  | nil => rfl
  | cons first rest => simp [dropIdle, busy]

theorem isIdle_of_plain {name : String} (plain : IsPlain name) : isIdle name = false := by
  simp [isIdle, plain.notEmpty, plain.notHere]

theorem component?_of_plain {name : String} (plain : IsPlain name) :
    component? name = some (.name name) := by
  simp [component?, plain.notEmpty, plain.notHere, plain.notUp]

theorem components_getLast? {path : Path} {front : List String} {name last : String}
    (plain : IsPlain last) (pieces : path.pieces = front ++ [name, last]) :
    path.components.getLast? = some (.name last) := by
  have ends (l : List String) :
      (l ++ [last]).filterMap component? = l.filterMap component? ++ [.name last] := by
    simp [component?_of_plain plain]
  obtain ⟨first, rest, front_eq⟩ : ∃ first rest, front ++ [name] = first :: rest :=
    List.exists_cons_of_ne_nil (by simp)
  rw [List.append_cons, front_eq, List.cons_append] at pieces
  rw [components, pieces]
  split
  · simp_all
  · simp_all
  · rename_i eq
    rw [← (List.cons.inj eq).2, ends, ← List.cons_append, List.getLast?_concat]
  · rename_i eq
    rw [← (List.cons.inj eq).2, ends, ← List.cons_append, List.getLast?_concat]
  · rw [← List.cons_append, ends, List.getLast?_concat]

theorem ofPieces_pieces {path : Path} (notRoot : path.pieces ≠ [""]) :
    ofPieces path.pieces = path := by
  rw [ofPieces, if_neg notRoot]
  refine ext_text (String.toList_inj.mp ?_)
  rw [String.toList_intercalate, pieces, List.map_map]
  have same : String.toList ∘ String.ofList = id := by
    funext text
    simp
  rw [same, List.map_id]
  exact List.intercalate_splitOn '/'

/-- The path above one that goes on by two names ends in the first of them. -/
theorem parent?_join_join (path : Path) {name last : String} (plain : IsPlain name)
    (plainLast : IsPlain last) : (path / name / last).parent? = some (path / name) := by
  obtain ⟨front, joined, -⟩ := pieces_join path plain
  obtain ⟨front', joined', above⟩ := pieces_join (path / name) plainLast
  have fronts : front' = front ++ [name] := by
    rcases above with above | above
    · exact above.symm.trans joined
    · have last := congrArg List.getLast? (above.symm.trans joined)
      simp [plain.notEmpty.symm] at last
  rw [fronts, List.append_assoc] at joined'
  have components := components_getLast? plainLast joined'
  have kept : dropIdle (path / name / last).pieces = front ++ [name] ++ [last] := by
    rw [joined', ← List.append_assoc, dropIdle_concat (isIdle_of_plain plainLast)]
  have long : ¬ (front ++ [name] ++ [last]).length ≤ 1 := by simp
  have whole : ofPieces (path / name).pieces = path / name :=
    ofPieces_pieces (by simp [joined, List.append_eq_singleton_iff, plain.notEmpty])
  rw [parent?, components]
  simp only [kept, if_neg long, List.dropLast_concat, dropIdle_concat (isIdle_of_plain plain)]
  rw [← joined, whole]

/-! ## Several more names -/

theorem names_below (path : Path) {names : List String} (plain : ∀ name ∈ names, IsPlain name) :
    (path.below names).names = path.names ++ names := by
  induction names generalizing path with
  | nil => simp
  | cons name rest ih =>
      rw [List.forall_mem_cons] at plain
      rw [below_cons, ih _ plain.2, names_join _ plain.1, List.append_assoc,
        List.singleton_append]

theorem steps_below (path : Path) {names : List String} (nonempty : names ≠ [])
    (plain : ∀ name ∈ names, IsPlain name) :
    (path.below names).steps = path.names ++ names := by
  obtain ⟨front, last, rfl⟩ : ∃ front last, names = front ++ [last] :=
    ⟨_, _, (List.dropLast_concat_getLast nonempty).symm⟩
  rw [List.forall_mem_append, List.forall_mem_singleton] at plain
  rw [below_snoc, steps_join _ plain.2, names_below _ plain.1, List.append_assoc]

theorem text_below_ne_empty {path : Path} (given : path.text ≠ "") {names : List String}
    (plain : ∀ name ∈ names, IsPlain name) : (path.below names).text ≠ "" := by
  induction names generalizing path with
  | nil => exact given
  | cons name rest ih =>
      rw [List.forall_mem_cons] at plain
      exact ih (join_text_ne_empty plain.1) plain.2

theorem isAbsolute_below {path : Path} (given : path.text ≠ "") {names : List String}
    (plain : ∀ name ∈ names, IsPlain name) :
    (path.below names).isAbsolute = path.isAbsolute := by
  induction names generalizing path with
  | nil => rfl
  | cons name rest ih =>
      rw [List.forall_mem_cons] at plain
      rw [below_cons, ih (join_text_ne_empty plain.1) plain.2, isAbsolute_join plain.1 given]

/-- A path is appended to another step by step. -/
theorem join_join (path : Path) {name addition : String} (plain : IsPlain name)
    (relative : (⟨addition⟩ : Path).isAbsolute = false) :
    path / name / addition = path / (name ++ "/" ++ addition) := by
  have whole : (⟨name ++ "/" ++ addition⟩ : Path).isAbsolute = false :=
    String.append_assoc ▸ not_isAbsolute_append plain _
  refine ext_text ?_
  rw [join_text_of_relative relative, join_text_of_relative whole,
    if_neg (not_or.mpr ⟨join_text_ne_empty plain, getLast?_join plain ▸ getLast?_ne_slash plain⟩),
    join_text plain]
  split <;> simp [String.append_assoc]

/-- Names can be appended all at once. -/
theorem below_eq_join (path : Path) {names : List String} (nonempty : names ≠ [])
    (plain : ∀ name ∈ names, IsPlain name) : path.below names = path / "/".intercalate names := by
  induction names generalizing path with
  | nil => exact absurd rfl nonempty
  | cons name rest ih =>
      cases rest with
      | nil => simp
      | cons next later =>
          rw [List.forall_mem_cons] at plain
          have relative : (⟨"/".intercalate (next :: later)⟩ : Path).isAbsolute = false := by
            have plainNext := plain.2 next List.mem_cons_self
            cases later with
            | nil => simpa using not_isAbsolute_of_plain plainNext
            | cons _ _ =>
                rw [String.intercalate_cons_cons, String.append_assoc]
                exact not_isAbsolute_append plainNext _
          rw [below_cons, ih (path / name) (by simp) plain.2, join_join path plain.1 relative,
            String.intercalate_cons_cons]

/-- The characters of a path that goes on by names are those of its parts and slashes. -/
theorem mem_text_below {path : Path} {names : List String}
    (plain : ∀ name ∈ names, IsPlain name) {c : Char} (other : c ≠ '/') :
    c ∈ (path.below names).text.toList ↔
      c ∈ path.text.toList ∨ ∃ name ∈ names, c ∈ name.toList := by
  induction names generalizing path with
  | nil => simp
  | cons name rest ih =>
      rw [List.forall_mem_cons] at plain
      have joined : c ∈ (path / name).text.toList ↔ c ∈ path.text.toList ∨ c ∈ name.toList := by
        rw [join_text plain.1]
        split <;> simp [other]
      rw [below_cons, ih plain.2, joined]
      simp [or_assoc]

/-- The path above one that goes on by at least two names. -/
theorem parent?_below (path : Path) {names : List String} {last : String}
    (nonempty : names ≠ []) (plain : ∀ name ∈ names, IsPlain name) (plainLast : IsPlain last) :
    (path.below (names ++ [last])).parent? = some (path.below names) := by
  obtain ⟨front, name, rfl⟩ : ∃ front name, names = front ++ [name] :=
    ⟨_, _, (List.dropLast_concat_getLast nonempty).symm⟩
  rw [List.forall_mem_append, List.forall_mem_singleton] at plain
  rw [below_snoc, below_snoc]
  exact parent?_join_join _ plain.2 plainLast

end Path
end SourceSearch
