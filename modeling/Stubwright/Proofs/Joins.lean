import Stubwright.Proofs.Places

/-!
# Paths joined and cut

    path ──join──▶ longer path ──parent?──▶ path

A path that another one is put to leads on from where the first one leads to (`placeOf_join`), over the
stations of both (`mem_stations_join`). The parent of a path is passed on the way
(`stations_parent`). So all a program does on its way to a file is done at the stations of its path.
-/

namespace Stubwright.Host.FileTree

variable {base : Place} {p q : Path}

/-! ## Joined paths -/

/-- The names of a path given as characters. -/
def namesOf (cs : List Char) : List String := (cs.splitOnP (· == '/')).map String.ofList

theorem namesOf_append (cs ds : List Char) :
    namesOf (cs ++ '/' :: ds) = namesOf cs ++ namesOf ds := by
  rw [namesOf, List.splitOnP_append_cons cs ds (by decide), List.map_append]
  rfl

theorem namesOf_word {cs : List Char} (h : '/' ∉ cs) : namesOf cs = [String.ofList cs] := by
  rw [namesOf, List.splitOnP_eq_singleton fun c hc => beq_false_of_ne (ne_of_mem_of_not_mem hc h)]
  rfl

theorem startOf_eq (base : Place) (p : Path) :
    startOf base p = (if p.isAbsolute then [] else base, namesOf p.text.toList) := by
  unfold startOf Text.pieces namesOf
  split <;> rfl

/-- An absolute path leads to the same place from everywhere. -/
theorem placeOf_absolute (h : p.isAbsolute = true) (base : Place) : placeOf base p = placeOf [] p := by
  unfold placeOf
  rw [startOf_eq, startOf_eq, if_pos h, if_pos h]

/-- What is put behind a path does not change where it starts. -/
theorem startOf_extend (hne : p.text.toList ≠ []) (more : String) :
    startOf base ⟨p.text ++ more⟩ =
      ((startOf base p).1, namesOf (p.text.toList ++ more.toList)) := by
  have habsolute : Path.isAbsolute ⟨p.text ++ more⟩ = p.isAbsolute := by
    simp only [Path.isAbsolute, String.toList_append]
    rw [List.head?_append_of_ne_nil _ hne]
  rw [startOf_eq, startOf_eq, habsolute, String.toList_append]

/-- A path that another is put to is followed first, up to an empty name at its end. -/
theorem startOf_join (hq : q.isAbsolute = false) (base : Place) (p : Path) :
    ∃ names, startOf base (p.join q) = ((startOf base p).1, names ++ namesOf q.text.toList) ∧
      ((startOf base p).2 = names ∨ (startOf base p).2 = names ++ [""]) := by
  have hnames : (startOf base p).2 = namesOf p.text.toList := by rw [startOf_eq]
  unfold Path.join
  rw [if_neg (by simp [hq])]
  by_cases hempty : p.text.toList = []
  · -- nothing but the second path is left
    have htext : p.text = "" := String.toList_eq_nil_iff.mp hempty
    have hjoin : (p.isEmpty || p.text.toList.getLast? == some '/') = true := by
      simp [Path.isEmpty, htext]
    have hq' : Path.mk (p.text ++ q.text) = q := by rw [htext, String.empty_append]
    have hstart : startOf base p = (base, [""]) := by
      rw [startOf_eq, hempty]
      simp [Path.isAbsolute, hempty, namesOf_word]
    refine ⟨[], ?_, .inr (by rw [hstart]; rfl)⟩
    rw [if_pos hjoin, hq', hstart, startOf_eq, hq]
    rfl
  · have htext : p.text ≠ "" := fun h => hempty (String.toList_eq_nil_iff.mpr h)
    by_cases hslash : p.text.toList.getLast? = some '/'
    · obtain ⟨cs, hcs⟩ := List.getLast?_eq_some_iff.mp hslash
      refine ⟨namesOf cs, ?_, .inr ?_⟩
      · rw [if_pos (by simp [hslash]), startOf_extend hempty, hcs, List.append_assoc,
          List.singleton_append, namesOf_append]
      · rw [hnames, hcs, namesOf_append, namesOf_word List.not_mem_nil]
    · refine ⟨namesOf p.text.toList, ?_, .inl hnames⟩
      rw [if_neg (by simp [Path.isEmpty, htext, hslash]), String.append_assoc,
        startOf_extend hempty, String.toList_append]
      show (_, namesOf (p.text.toList ++ '/' :: q.text.toList)) = _
      rw [namesOf_append]

theorem startOf_relative (hq : q.isAbsolute = false) (place : Place) :
    startOf place q = (place, namesOf q.text.toList) := by
  rw [startOf_eq, hq]
  rfl

/-- The names of the first path lead where it leads, over its stations. -/
theorem foldl_of_join {names : List String}
    (h : (startOf base p).2 = names ∨ (startOf base p).2 = names ++ [""]) :
    names.foldl stepTo (startOf base p).1 = placeOf base p ∧
      ∀ x ∈ route (startOf base p).1 names, x ∈ stations base p := by
  unfold placeOf stations
  rcases h with h | h
  · rw [h]
    exact ⟨rfl, fun x hx => hx⟩
  · rw [h, List.foldl_append, List.foldl_cons, List.foldl_nil, stepTo_empty]
    exact ⟨rfl, fun x hx => mem_route_append.mpr (.inl hx)⟩

/-- **A joined path leads on from where the first path leads to.** -/
theorem placeOf_join (hq : q.isAbsolute = false) (base : Place) (p : Path) :
    placeOf base (p.join q) = placeOf (placeOf base p) q := by
  obtain ⟨names, hjoin, hnames⟩ := startOf_join hq base p
  have hlater : placeOf (placeOf base p) q
      = (namesOf q.text.toList).foldl stepTo (placeOf base p) := by
    rw [placeOf, startOf_relative hq]
  rw [hlater, ← (foldl_of_join hnames).1, ← List.foldl_append]
  show (startOf base (p.join q)).2.foldl stepTo (startOf base (p.join q)).1 = _
  rw [hjoin]

/-- The stations of a joined path are those of the first path and those from there on. -/
theorem mem_stations_join (hq : q.isAbsolute = false) {x : Place}
    (hx : x ∈ stations base (p.join q)) :
    x ∈ stations base p ∨ x ∈ stations (placeOf base p) q := by
  obtain ⟨names, hjoin, hnames⟩ := startOf_join hq base p
  obtain ⟨hplace, hroute⟩ := foldl_of_join hnames
  rw [stations, hjoin, mem_route_append, hplace] at hx
  rcases hx with hx | hx
  · exact .inl (hroute x hx)
  · exact .inr (by rwa [stations, startOf_relative hq])

/-! ### Components -/

/-- A name that can stand between two slashes. -/
structure IsComponent (name : String) : Prop extends IsProper name where
  undivided : '/' ∉ name.toList

variable {name : String} {segments : List String}

theorem isAbsolute_component (h : IsComponent name) : Path.isAbsolute ⟨name⟩ = false := by
  refine beq_false_of_ne fun hhead => h.undivided ?_
  exact List.mem_of_mem_head? hhead

theorem startOf_component (h : IsComponent name) (place : Place) :
    startOf place ⟨name⟩ = (place, [name]) := by
  rw [startOf_relative (isAbsolute_component h), namesOf_word h.undivided, String.ofList_toList]

theorem placeOf_component (h : IsComponent name) (place : Place) :
    placeOf place ⟨name⟩ = place ++ [name] := by
  rw [placeOf, startOf_component h]
  exact stepTo_proper h.toIsProper place

/-- A component leads down by one. -/
theorem placeOf_join_component (h : IsComponent name) (base : Place) (p : Path) :
    placeOf base (p.join ⟨name⟩) = placeOf base p ++ [name] := by
  rw [placeOf_join (isAbsolute_component h), placeOf_component h]

/-- Components lead down one after the other. -/
theorem placeOf_joinAll (h : ∀ name ∈ segments, IsComponent name) (base : Place) (p : Path) :
    placeOf base (p.joinAll segments) = placeOf base p ++ segments := by
  induction segments generalizing p with
  | nil => exact (List.append_nil _).symm
  | cons name segments ih =>
    rw [List.forall_mem_cons] at h
    show placeOf base ((p.join ⟨name⟩).joinAll segments) = _
    rw [ih h.2, placeOf_join_component h.1, List.append_assoc, List.singleton_append]

/-- Below a path there are only its stations, and what is below its place. -/
theorem mem_stations_joinAll (h : ∀ name ∈ segments, IsComponent name) {x : Place}
    (hx : x ∈ stations base (p.joinAll segments)) : x ∈ stations base p ∨ placeOf base p <+: x := by
  induction segments generalizing p with
  | nil => exact .inl hx
  | cons name segments ih =>
    rw [List.forall_mem_cons] at h
    have hx : x ∈ stations base ((p.join ⟨name⟩).joinAll segments) := hx
    rcases ih h.2 hx with hx | hx
    · rcases mem_stations_join (isAbsolute_component h.1) hx with hx | hx
      · exact .inl hx
      · rw [stations, startOf_component h.1] at hx
        exact .inr (prefix_of_mem_route (List.forall_mem_singleton.mpr h.1.toIsProper) hx)
    · rw [placeOf_join_component h.1] at hx
      exact .inr ((List.prefix_append _ _).trans hx)

theorem isAbsolute_join (hp : p.isAbsolute = false) (hq : q.isAbsolute = false) :
    (p.join q).isAbsolute = false := by
  unfold Path.join
  rw [if_neg (by simp [hq])]
  have hextend : ∀ more : String, (p.text = "" → Path.isAbsolute ⟨more⟩ = false) →
      Path.isAbsolute ⟨p.text ++ more⟩ = false := by
    intro more hmore
    by_cases htext : p.text = ""
    · rw [htext, String.empty_append]
      exact hmore htext
    · have hne : p.text.toList ≠ [] := fun h => htext (String.toList_eq_nil_iff.mp h)
      simpa only [Path.isAbsolute, String.toList_append, List.head?_append_of_ne_nil _ hne] using hp
  split
  · exact hextend _ fun _ => hq
  · next hjoin =>
    rw [String.append_assoc]
    refine hextend _ fun htext => absurd ?_ hjoin
    simp [Path.isEmpty, htext]

theorem isAbsolute_joinAll (hp : p.isAbsolute = false) (h : ∀ name ∈ segments, IsComponent name) :
    (p.joinAll segments).isAbsolute = false := by
  induction segments generalizing p with
  | nil => exact hp
  | cons name segments ih =>
    rw [List.forall_mem_cons] at h
    exact ih (isAbsolute_join hp (isAbsolute_component h.1)) h.2

/-! ## Parents -/

/-- The path of some characters, given from last to first. -/
def backwards (cs : List Char) : Path := ⟨String.ofList cs.reverse⟩

theorem startOf_backwards (base : Place) (cs : List Char) :
    startOf base (backwards cs) =
      (if (backwards cs).isAbsolute then [] else base, namesOf cs.reverse) := by
  rw [startOf_eq, backwards, String.toList_ofList]

theorem isAbsolute_backwards (cs : List Char) :
    (backwards cs).isAbsolute = (cs.getLast? == some '/') := by
  rw [Path.isAbsolute, backwards, String.toList_ofList, List.head?_reverse]

/-- The second path starts where the first does and passes nothing that the first does not pass. -/
structure Along (p q : Path) : Prop where
  absolute : q.isAbsolute = p.isAbsolute
  passed : ∀ base, ∀ x ∈ stations base q, x ∈ stations base p

theorem Along.refl (p : Path) : Along p p := ⟨rfl, fun _ _ h => h⟩

theorem Along.trans {r : Path} (h : Along p q) (h' : Along q r) : Along p r :=
  ⟨h'.absolute.trans h.absolute, fun base x hx => h.passed base x (h'.passed base x hx)⟩

/-- A path with a word behind its last slash. -/
theorem mem_stations_word {word : List Char} (hword : '/' ∉ word) (cs : List Char) {x : Place} :
    x ∈ stations base (backwards (word ++ '/' :: cs)) ↔
      x ∈ route (if cs = [] ∨ (backwards cs).isAbsolute then [] else base)
        (namesOf cs.reverse ++ [String.ofList word.reverse]) := by
  have habsolute : (backwards (word ++ '/' :: cs)).isAbsolute = true ↔
      cs = [] ∨ (backwards cs).isAbsolute = true := by
    rw [isAbsolute_backwards, isAbsolute_backwards,
      List.getLast?_append_of_ne_nil _ (List.cons_ne_nil _ _), List.getLast?_cons]
    cases cs with
    | nil => simp
    | cons c cs => simp [List.getLast?_cons]
  have hnames : namesOf (word ++ '/' :: cs).reverse
      = namesOf cs.reverse ++ [String.ofList word.reverse] := by
    rw [List.reverse_append, List.reverse_cons, List.append_assoc, List.singleton_append,
      namesOf_append, namesOf_word fun h => hword (List.mem_reverse.mp h)]
  rw [stations, startOf_backwards, hnames]
  simp only [habsolute]

/-- Without its last name, a path passes no more. -/
theorem along_name {word : List Char} (hword : '/' ∉ word) (cs : List Char) :
    Along (backwards (word ++ '/' :: cs)) (backwards ('/' :: cs)) := by
  refine ⟨?_, fun base x hx => ?_⟩
  · rw [isAbsolute_backwards, isAbsolute_backwards,
      List.getLast?_append_of_ne_nil _ (List.cons_ne_nil _ _)]
  · rw [mem_stations_word hword, mem_route_append]
    rw [← List.nil_append ('/' :: cs), mem_stations_word List.not_mem_nil, mem_route_append] at hx
    rcases hx with hx | hx
    · exact .inl hx
    · -- the empty name behind the slash leads nowhere
      refine .inl ?_
      obtain rfl : x = _ := by simpa [route] using hx
      exact end_mem_route _ _

/-- Without a slash at its end, a path passes no more. -/
theorem along_slash {cs : List Char} (hne : cs ≠ []) :
    Along (backwards ('/' :: cs)) (backwards cs) := by
  refine ⟨?_, fun base x hx => ?_⟩
  · rw [isAbsolute_backwards, isAbsolute_backwards, List.getLast?_cons_of_ne_nil hne]
  · rw [← List.nil_append ('/' :: cs), mem_stations_word List.not_mem_nil, mem_route_append]
    rw [stations, startOf_backwards] at hx
    simp only [hne, false_or]
    exact .inl hx

theorem along_dropTrailing (cs : List Char) :
    Along (backwards cs) (backwards (Path.dropTrailing cs)) := by
  fun_induction Path.dropTrailing cs with
  | case1 => exact .refl _
  | case2 rest hne ih => exact (along_slash hne).trans ih
  | case3 rest ih =>
    have hdot : '/' ∉ ['.'] := by decide
    exact (along_name hdot rest).trans ih
  | case4 => exact .refl _

/-- **The parent of a path lies on the way.** -/
theorem stations_parent (h : p.parent? = some q) {x : Place} (hx : x ∈ stations base q) :
    x ∈ stations base p := by
  have htrailing : Along p (backwards p.trailing) := by
    have hp : backwards p.text.toList.reverse = p := by
      rw [backwards, List.reverse_reverse, String.ofList_toList]
    have halong := along_dropTrailing p.text.toList.reverse
    rwa [hp] at halong
  refine htrailing.passed base x ?_
  unfold Path.parent? at h
  generalize p.trailing = cs at h
  have hparent : q = backwards (Path.dropTrailing (cs.dropWhile (· != '/'))) := by
    split at h
    · cases h
    · cases h
    · cases h
      rfl
  rw [hparent] at hx
  have hsplit : cs.takeWhile (· != '/') ++ cs.dropWhile (· != '/') = cs :=
    List.takeWhile_append_dropWhile
  have hword : '/' ∉ cs.takeWhile (· != '/') := fun hmem => by
    simpa using List.mem_takeWhile_imp hmem
  generalize cs.takeWhile (· != '/') = word at hsplit hword
  cases hdrop : cs.dropWhile (· != '/') with
  | nil =>
    -- a single name: the parent has no text, and is where the path starts
    rw [hdrop, List.append_nil] at hsplit
    subst hsplit
    have hrelative : (backwards word).isAbsolute = false := by
      rw [isAbsolute_backwards]
      exact beq_false_of_ne fun hlast => hword (List.mem_of_getLast? hlast)
    rw [hdrop] at hx
    have hempty : stations base (backwards (Path.dropTrailing [])) = [base, base] := rfl
    obtain rfl : x = base := by simpa [hempty] using hx
    rw [stations, startOf_backwards, hrelative]
    exact start_mem_route _ _
  | cons c rest =>
    rw [hdrop] at hx hsplit
    obtain rfl : c = '/' := by
      have hhead := List.head?_dropWhile_not (· != '/') cs
      rw [hdrop] at hhead
      simpa using hhead
    rw [← hsplit]
    exact (along_name hword rest).passed base x ((along_dropTrailing _).passed base x hx)

end Stubwright.Host.FileTree
