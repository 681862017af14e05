import Stubwright.Proofs.Joins

/-!
# The components of a path

    path ──cut──▶ names ──component?──▶ components

Paths are kept as they were written, so that one path has many texts: a slash at the end, two slashes
in a row and a dot between slashes say nothing. `components` is what is left of a path without them.
What is joined to a path adds its own components (`components_join`), and the parent of a path with a
name at its end has the others (`parent?_join`). The extension of such a name is replaced within the
text, whatever stands in front of it (`withExtension_join`).
-/

namespace Stubwright.Host.FileTree

variable {p q r : Path} {name : String} {segments : List String}

/-- What a path is made of. -/
inductive Component where
  /-- The slash an absolute path starts with. -/
  | root
  /-- The dot a relative path starts with. -/
  | here
  | up
  | name (text : String)
  deriving DecidableEq, Repr

/-- What a name between two slashes stands for. -/
def component? (name : String) : Option Component :=
  if name.isEmpty || name == "." then none
  else if name == ".." then some .up
  else some (.name name)

/-- The components of a path with these names. -/
def componentsOf (absolute : Bool) (names : List String) : List Component :=
  (if absolute then [.root] else if names.head? = some "." then [.here] else []) ++
    names.filterMap component?

/-- The components of a path. -/
def components (p : Path) : List Component := componentsOf p.isAbsolute (namesOf p.text.toList)

example : components ⟨"./a//b/../c/."⟩ = [.here, .name "a", .name "b", .up, .name "c"] := by
  decide +kernel

/-! ## Names -/

theorem namesOf_ne_nil (cs : List Char) : namesOf cs ≠ [] := by
  simp [namesOf, List.splitOnP_ne_nil]

theorem component?_proper (h : IsProper name) : component? name = some (.name name) := by
  simp [component?, h.nonempty, h.not_here, h.not_up]

theorem componentsOf_append {names : List String} (hne : names ≠ []) (absolute : Bool)
    (more : List String) :
    componentsOf absolute (names ++ more)
      = componentsOf absolute names ++ more.filterMap component? := by
  rw [componentsOf, componentsOf, List.head?_append_of_ne_nil _ hne, List.filterMap_append,
    List.append_assoc]

/-- A name at the end that stands for nothing. -/
theorem componentsOf_concat {names : List String} (hne : names ≠ []) (absolute : Bool)
    {blank : String} (hblank : component? blank = none) :
    componentsOf absolute (names ++ [blank]) = componentsOf absolute names := by
  rw [componentsOf_append hne, List.filterMap_cons_none hblank, List.filterMap_nil,
    List.append_nil]

/-- A path without a root and a dot in front is what its names stand for. -/
theorem components_relative (hroot : Component.root ∉ components q)
    (hhere : Component.here ∉ components q) :
    q.isAbsolute = false ∧ (namesOf q.text.toList).head? ≠ some "." ∧
      components q = (namesOf q.text.toList).filterMap component? := by
  have habsolute : q.isAbsolute = false := by
    refine Bool.eq_false_iff.mpr fun h => hroot ?_
    rw [components, componentsOf, h]
    exact List.mem_cons_self
  have hdot : (namesOf q.text.toList).head? ≠ some "." := by
    refine fun h => hhere ?_
    rw [components, componentsOf, habsolute, h]
    exact List.mem_cons_self
  refine ⟨habsolute, hdot, ?_⟩
  rw [components, componentsOf, habsolute, if_neg Bool.false_ne_true, if_neg hdot, List.nil_append]

/-! ## Joined paths -/

/-- **A joined path has the components of both.** -/
theorem components_join (hroot : Component.root ∉ components q)
    (hhere : Component.here ∉ components q) (p : Path) :
    components (p.join q) = components p ++ components q := by
  obtain ⟨habsolute, hdot, hq⟩ := components_relative hroot hhere
  -- seen from some place, a joined path starts where the first path starts
  obtain ⟨names, hjoin, hnames⟩ := startOf_join habsolute ["x"] p
  rw [startOf_eq, startOf_eq] at hjoin
  rw [startOf_eq] at hnames
  obtain ⟨hstart, hjoined⟩ := Prod.mk.inj hjoin
  have hsame : (p.join q).isAbsolute = p.isAbsolute := by
    cases hp : p.isAbsolute <;> cases hpq : (p.join q).isAbsolute <;>
      simp [hp, hpq] at hstart ⊢
  rw [hq, components, hsame, hjoined, components]
  dsimp only at hnames
  rcases hnames with hnames | hnames
  · rw [hnames]
    exact componentsOf_append (hnames ▸ namesOf_ne_nil _) _ _
  · rw [hnames]
    by_cases hempty : names = []
    · subst hempty
      have hnone : componentsOf p.isAbsolute [""] = if p.isAbsolute then [.root] else [] := by
        cases p.isAbsolute <;> decide
      rw [List.nil_append, List.nil_append, hnone, componentsOf, if_neg hdot]
    · rw [componentsOf_concat hempty _ rfl, componentsOf_append hempty]

theorem components_component (h : IsComponent name) : components ⟨name⟩ = [.name name] := by
  rw [components, isAbsolute_component h, namesOf_word h.undivided, String.ofList_toList,
    componentsOf, List.filterMap_cons_some (component?_proper h.toIsProper)]
  simp [h.not_here]

theorem components_join_component (h : IsComponent name) (p : Path) :
    components (p.join ⟨name⟩) = components p ++ [.name name] := by
  have hcomponents := components_component h
  rw [components_join (by simp [hcomponents]) (by simp [hcomponents]), hcomponents]

theorem components_joinAll (h : ∀ name ∈ segments, IsComponent name) (p : Path) :
    components (p.joinAll segments) = components p ++ segments.map .name := by
  induction segments generalizing p with
  | nil => exact (List.append_nil _).symm
  | cons name segments ih =>
    rw [List.forall_mem_cons] at h
    show components ((p.join ⟨name⟩).joinAll segments) = _
    rw [ih h.2, components_join_component h.1, List.append_assoc]
    rfl

/-! ### Their texts -/

/-- What a path becomes when something is joined to it. -/
def front (p : Path) : List Char :=
  if p.isEmpty || p.text.toList.getLast? == some '/' then p.text.toList
  else p.text.toList ++ ['/']

theorem toList_join (hq : q.isAbsolute = false) (p : Path) :
    (p.join q).text.toList = front p ++ q.text.toList := by
  unfold Path.join front
  rw [if_neg (by simp [hq])]
  split
  · exact String.toList_append
  · rw [String.toList_append, String.toList_append]
    rfl

theorem eq_of_toList (h : p.text.toList = q.text.toList) : p = q := by
  cases p
  cases q
  exact congrArg Path.mk (String.toList_inj.mp h)

theorem empty_join (hq : q.isAbsolute = false) : Path.join ⟨""⟩ q = q :=
  eq_of_toList (toList_join hq ⟨""⟩)

theorem front_cases (p : Path) : front p = [] ∨ ∃ cs, front p = cs ++ ['/'] := by
  unfold front
  split
  · next h =>
    simp only [Bool.or_eq_true, beq_iff_eq] at h
    rcases h with h | h
    · exact .inl (String.toList_eq_nil_iff.mpr (String.isEmpty_iff.mp h))
    · exact .inr (List.getLast?_eq_some_iff.mp h)
  · exact .inr ⟨_, rfl⟩

theorem front_join (hq : q.isAbsolute = false) (hne : q.text.toList ≠ []) (p : Path) :
    front (p.join q) = front p ++ front q := by
  have hempty : ∀ p : Path, p.isEmpty = true ↔ p.text.toList = [] := fun p =>
    String.isEmpty_iff.trans String.toList_eq_nil_iff.symm
  have hlast : (p.join q).text.toList.getLast? = q.text.toList.getLast? := by
    rw [toList_join hq, List.getLast?_append_of_ne_nil _ hne]
  have hjoin : ¬ (p.join q).isEmpty = true := by
    rw [hempty, toList_join hq]
    simp [hne]
  have hq' : ¬ q.isEmpty = true := by rwa [hempty]
  rw [front, front.eq_def q, hlast, toList_join hq, Bool.eq_false_iff.mpr hjoin,
    Bool.eq_false_iff.mpr hq']
  split
  · rfl
  · exact List.append_assoc _ _ _

theorem join_assoc (hq : q.isAbsolute = false) (hne : q.text.toList ≠ [])
    (hr : r.isAbsolute = false) (p : Path) : (p.join q).join r = p.join (q.join r) := by
  apply eq_of_toList
  rw [toList_join hr, front_join hq hne, toList_join (isAbsolute_join hq hr), toList_join hr,
    List.append_assoc]

theorem toList_ne_nil (h : IsComponent name) : name.toList ≠ [] :=
  fun hnil => h.nonempty (String.toList_eq_nil_iff.mp hnil)

theorem joinAll_concat (p : Path) (segments : List String) (name : String) :
    p.joinAll (segments ++ [name]) = (p.joinAll segments).join ⟨name⟩ := by
  rw [Path.joinAll, List.foldl_append]
  rfl

theorem join_joinAll (hq : q.isAbsolute = false) (hne : q.text.toList ≠ [])
    (h : ∀ name ∈ segments, IsComponent name) (p : Path) :
    p.join (q.joinAll segments) = (p.join q).joinAll segments := by
  induction segments generalizing q with
  | nil => rfl
  | cons name segments ih =>
    rw [List.forall_mem_cons] at h
    have hname := isAbsolute_component h.1
    have hlonger : (q.join ⟨name⟩).text.toList ≠ [] := by
      rw [toList_join hname]
      simp [toList_ne_nil h.1]
    show p.join ((q.join ⟨name⟩).joinAll segments) = ((p.join q).join ⟨name⟩).joinAll segments
    rw [ih (isAbsolute_join hq hname) hlonger h.2, join_assoc hq hne hname]

/-- Components may be joined to each other first. -/
theorem join_joinAll_empty (hne : segments ≠ []) (h : ∀ name ∈ segments, IsComponent name)
    (p : Path) : p.join (Path.joinAll ⟨""⟩ segments) = p.joinAll segments := by
  cases segments with
  | nil => exact absurd rfl hne
  | cons name segments =>
    rw [List.forall_mem_cons] at h
    have hname := isAbsolute_component h.1
    show p.join ((Path.join ⟨""⟩ ⟨name⟩).joinAll segments) = (p.join ⟨name⟩).joinAll segments
    rw [empty_join hname, join_joinAll hname (toList_ne_nil h.1) h.2]

/-- Components are put behind a path with slashes between them. -/
theorem text_joinAll (hend : ∃ c, p.text.toList.getLast? = some c ∧ c ≠ '/')
    (h : ∀ name ∈ segments, IsComponent name) :
    (p.joinAll segments).text = "/".intercalate (p.text :: segments) := by
  induction segments generalizing p with
  | nil => rfl
  | cons name segments ih =>
    rw [List.forall_mem_cons] at h
    obtain ⟨c, hc, hslash⟩ := hend
    have hempty : p.isEmpty = false := by
      refine Bool.eq_false_iff.mpr fun hempty => ?_
      rw [String.toList_eq_nil_iff.mpr (String.isEmpty_iff.mp hempty)] at hc
      cases hc
    have hjoin : p.join ⟨name⟩ = ⟨p.text ++ "/" ++ name⟩ := by
      rw [Path.join, isAbsolute_component h.1, hempty, hc]
      simp [hslash]
    have hlast : ∃ c, (p.join ⟨name⟩).text.toList.getLast? = some c ∧ c ≠ '/' := by
      have hne := toList_ne_nil h.1
      refine ⟨name.toList.getLast hne, ?_, ?_⟩
      · rw [hjoin, String.toList_append, List.getLast?_append_of_ne_nil _ hne,
          List.getLast?_eq_some_getLast hne]
      · exact ne_of_mem_of_not_mem (List.getLast_mem hne) h.1.undivided
    show ((p.join ⟨name⟩).joinAll segments).text = _
    rw [ih hlast h.2, hjoin]
    rfl

theorem joinAll_empty (hne : segments ≠ []) (h : ∀ name ∈ segments, IsComponent name) :
    Path.joinAll ⟨""⟩ segments = ⟨"/".intercalate segments⟩ := by
  cases segments with
  | nil => exact absurd rfl hne
  | cons name segments =>
    rw [List.forall_mem_cons] at h
    have hname := toList_ne_nil h.1
    have hend : ∃ c, name.toList.getLast? = some c ∧ c ≠ '/' :=
      ⟨_, List.getLast?_eq_some_getLast hname,
        ne_of_mem_of_not_mem (List.getLast_mem hname) h.1.undivided⟩
    show (Path.join ⟨""⟩ ⟨name⟩).joinAll segments = _
    rw [empty_join (isAbsolute_component h.1)]
    exact congrArg Path.mk (text_joinAll (p := ⟨name⟩) hend h.2)

/-! ## The end of a path -/

theorem components_backwards (cs : List Char) :
    components (backwards cs) = componentsOf (cs.getLast? == some '/') (namesOf cs.reverse) := by
  rw [components, isAbsolute_backwards, backwards, String.toList_ofList]

theorem namesOf_backwards_cons (word cs : List Char) :
    namesOf (word ++ '/' :: cs).reverse = namesOf cs.reverse ++ namesOf word.reverse := by
  rw [List.reverse_append, List.reverse_cons, List.append_assoc, List.singleton_append,
    namesOf_append]

/-- A slash at the end says nothing. -/
theorem components_slash {cs : List Char} (hne : cs ≠ []) :
    components (backwards ('/' :: cs)) = components (backwards cs) := by
  rw [components_backwards, components_backwards, List.getLast?_cons_of_ne_nil hne,
    ← List.nil_append ('/' :: cs), namesOf_backwards_cons]
  exact componentsOf_concat (namesOf_ne_nil _) _ rfl

/-- A dot at the end says no more than a slash. -/
theorem components_dot (cs : List Char) :
    components (backwards ('.' :: '/' :: cs)) = components (backwards ('/' :: cs)) := by
  have hdot := namesOf_backwards_cons ['.'] cs
  have hslash := namesOf_backwards_cons [] cs
  rw [List.singleton_append] at hdot
  rw [List.nil_append] at hslash
  rw [components_backwards, components_backwards,
    List.getLast?_cons_of_ne_nil (List.cons_ne_nil _ _), hdot, hslash]
  exact (componentsOf_concat (namesOf_ne_nil _) _ (by decide)).trans
    (componentsOf_concat (namesOf_ne_nil _) _ rfl).symm

theorem components_dropTrailing (cs : List Char) :
    components (backwards (Path.dropTrailing cs)) = components (backwards cs) := by
  fun_induction Path.dropTrailing cs with
  | case1 => rfl
  | case2 rest hne ih => rw [ih, components_slash hne]
  | case3 rest ih => rw [ih, components_dot]
  | case4 => rfl

theorem components_front (p : Path) : components (backwards (front p).reverse) = components p := by
  have hp : backwards p.text.toList.reverse = p := by
    rw [backwards, List.reverse_reverse, String.ofList_toList]
  unfold front
  split
  · rw [hp]
  · next hjoin =>
    have hne : p.text.toList.reverse ≠ [] := by
      rintro hnil
      refine hjoin ?_
      rw [List.reverse_eq_nil_iff, String.toList_eq_nil_iff] at hnil
      simp [Path.isEmpty, hnil]
    rw [List.reverse_append, List.reverse_singleton, List.singleton_append, components_slash hne,
      hp]

/-! ### A name at the end -/

/-- A word other than a dot is not dropped. -/
theorem dropTrailing_word {word : List Char} (hne : word ≠ []) (hslash : '/' ∉ word)
    (hdot : word ≠ ['.']) (rest : List Char) : Path.dropTrailing (word ++ rest) = word ++ rest := by
  cases word with
  | nil => exact absurd rfl hne
  | cons c word =>
    rw [List.mem_cons, not_or] at hslash
    rw [List.cons_append]
    unfold Path.dropTrailing
    split
    · next heq => exact heq.symm
    · next heq =>
      cases heq
      exact absurd rfl hslash.1
    · next more heq =>
      obtain ⟨rfl, heq⟩ := List.cons.inj heq
      cases word with
      | nil => exact absurd rfl hdot
      | cons d word =>
        cases heq
        exact absurd List.mem_cons_self hslash.2
    · rfl

/-- The reversed path ends with the name that was joined to it. -/
theorem trailing_join (h : IsComponent name) (p : Path) :
    (p.join ⟨name⟩).trailing = name.toList.reverse ++ (front p).reverse := by
  have hne : name.toList.reverse ≠ [] := by simpa using toList_ne_nil h
  have hslash : '/' ∉ name.toList.reverse := fun hmem => h.undivided (List.mem_reverse.mp hmem)
  have hdot : name.toList.reverse ≠ ['.'] := by
    intro heq
    rw [List.reverse_eq_iff] at heq
    exact h.not_here (String.toList_inj.mp heq)
  rw [Path.trailing, toList_join (isAbsolute_component h), List.reverse_append,
    dropTrailing_word hne hslash hdot]

/-- A word is told apart from the path before it by the slash between them. -/
theorem cut_trailing (h : IsComponent name) (p : Path) :
    (p.join ⟨name⟩).trailing.takeWhile (· != '/') = name.toList.reverse ∧
      (p.join ⟨name⟩).trailing.dropWhile (· != '/') = (front p).reverse := by
  have hpass : ∀ c ∈ name.toList.reverse, (c != '/') = true := by
    intro c hc
    simpa using ne_of_mem_of_not_mem (List.mem_reverse.mp hc) h.undivided
  rw [trailing_join h, List.takeWhile_append_of_pos hpass, List.dropWhile_append_of_pos hpass]
  rcases front_cases p with hfront | ⟨cs, hfront⟩
  · simp [hfront]
  · simp [hfront]

theorem fileName?_join (h : IsComponent name) (p : Path) :
    (p.join ⟨name⟩).fileName? = some name := by
  unfold Path.fileName?
  rw [(cut_trailing h p).1, List.reverse_reverse, String.ofList_toList]
  simp [h.nonempty, h.not_here, h.not_up]

/-- **The parent of a path with a name at its end has the components before that name.** -/
theorem parent?_join (h : IsComponent name) (p : Path) :
    ∃ parent, (p.join ⟨name⟩).parent? = some parent ∧ components parent = components p := by
  have hcut := (cut_trailing h p).2
  have htrailing := trailing_join h p
  refine ⟨backwards (Path.dropTrailing (front p).reverse), ?_, ?_⟩
  · unfold Path.parent?
    split
    · next hnil =>
      rw [htrailing, List.append_eq_nil_iff] at hnil
      exact absurd (List.reverse_eq_nil_iff.mp hnil.1) (toList_ne_nil h)
    · next hroot =>
      refine absurd ?_ h.undivided
      have hmem : (name.toList.reverse ++ (front p).reverse).head? = some '/' := by
        rw [← htrailing, hroot]
        rfl
      rw [List.head?_append_of_ne_nil _ (by simpa using toList_ne_nil h)] at hmem
      exact List.mem_reverse.mp (List.mem_of_mem_head? hmem)
    · rw [hcut]
      rfl
  · rw [components_dropTrailing, components_front]

/-! ### Extensions -/

theorem splitExtension?_eq {stem ext : String} (hstem : stem ≠ "") (hext : '.' ∉ ext.toList) :
    Path.splitExtension? (stem ++ "." ++ ext) = some (stem, ext) := by
  have hpass : ∀ c ∈ ext.toList.reverse, (!(c == '.')) = true := by
    intro c hc
    simpa using ne_of_mem_of_not_mem (List.mem_reverse.mp hc) hext
  have hreverse : (stem ++ "." ++ ext).toList.reverse
      = ext.toList.reverse ++ '.' :: stem.toList.reverse := by
    simp
  have hcut : Text.cutLast? (· == '.') (stem ++ "." ++ ext).toList
      = some (stem.toList, ext.toList) := by
    unfold Text.cutLast?
    rw [hreverse, List.dropWhile_append_of_pos hpass, List.takeWhile_append_of_pos hpass]
    simp
  unfold Path.splitExtension?
  rw [hcut]
  cases hcs : stem.toList with
  | nil => exact absurd (String.toList_eq_nil_iff.mp hcs) hstem
  | cons c cs =>
    dsimp only
    rw [← hcs, String.ofList_toList, String.ofList_toList]

variable {stem ext ext' : String}

theorem extension?_join (h : IsComponent (stem ++ "." ++ ext)) (hstem : stem ≠ "")
    (hext : '.' ∉ ext.toList) (p : Path) :
    (p.join ⟨stem ++ "." ++ ext⟩).extension? = some ext := by
  rw [Path.extension?, fileName?_join h]
  dsimp only
  rw [splitExtension?_eq hstem hext]
  rfl

/-- **The extension of a name at the end is replaced, and all before it stays.** -/
theorem withExtension_join (h : IsComponent (stem ++ "." ++ ext)) (hstem : stem ≠ "")
    (hdot : stem ≠ ".") (hext : '.' ∉ ext.toList) (p : Path) :
    (p.join ⟨stem ++ "." ++ ext⟩).withExtension ext' = p.join ⟨stem ++ "." ++ ext'⟩ := by
  have habsolute : Path.isAbsolute ⟨stem ++ "." ++ ext'⟩ = false := by
    refine beq_false_of_ne fun hhead => h.undivided ?_
    have hne : stem.toList ≠ [] := fun hnil => hstem (String.toList_eq_nil_iff.mp hnil)
    rw [String.toList_append, String.toList_append, List.append_assoc,
      List.head?_append_of_ne_nil _ hne] at hhead
    rw [String.toList_append, String.toList_append, List.append_assoc]
    exact List.mem_append_left _ (List.mem_of_mem_head? hhead)
  apply eq_of_toList
  rw [Path.withExtension, fileName?_join h, toList_join habsolute]
  dsimp only
  rw [(cut_trailing h p).2, splitExtension?_eq hstem hext, List.reverse_reverse]
  simp [hdot]

end Stubwright.Host.FileTree
