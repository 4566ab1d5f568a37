import ImportAtlas.Proofs.ClusteredSets

/-!
# Clusters and directories

A cluster takes the place of the names that start with it, whether or not the name of a directory ends there. So a
name lies in the directory that is named like its cluster if a slash comes next, or if the cluster ends in one; and all
names do so if and only if every cluster that is ever taken ends in a slash.
-/

namespace ImportAtlas

/-- The name starts with the directory and a slash, which may be the one in which the directory ends. -/
def Path.LiesIn (name dir : String) : Prop :=
  (dir ++ "/").toList <+: name.toList ∨ Text.endsIn dir "/" = true ∧ dir.toList <+: name.toList

namespace Path

theorem endsIn_slash_iff {text : String} : Text.endsIn text "/" = true ↔ text.toList.getLast? = some '/' := by
  rw [Text.endsIn_iff]
  constructor
  · rintro ⟨front, hfront⟩
    rw [← hfront]
    simp
  · intro hlast
    obtain ⟨front, hfront⟩ := List.getLast?_eq_some_iff.1 hlast
    exact ⟨front, hfront.symm⟩

/-- What comes right after the start of a name decides whether the name lies in that directory. -/
theorem liesIn_iff {name dir : String} {next : Char} {rest : List Char}
    (h : name.toList = dir.toList ++ next :: rest) : LiesIn name dir ↔ Text.endsIn dir "/" = true ∨ next = '/' := by
  have hstart : dir.toList <+: name.toList := ⟨_, h.symm⟩
  have hnext : (dir ++ "/").toList <+: name.toList ↔ next = '/' := by
    rw [h, String.toList_append, List.prefix_append_right_inj]
    simp [eq_comm]
  unfold LiesIn
  rw [hnext]
  simp only [hstart, and_true]
  exact or_comm

end Path

namespace Depends

def clusterName (clusters : List String) (name : String) : String :=
  (clusters.find? (Text.beginsWith name)).getD name

/-- No cluster before this one is a start of it, so that it is taken for some names. -/
def Taken (clusters : List String) (c : String) : Prop := clusters.find? (Text.beginsWith c) = some c

instance (clusters : List String) (c : String) : Decidable (Taken clusters c) :=
  inferInstanceAs (Decidable (_ = _))

section

variable {clusters : List String} {name c : String}

theorem find?_of_clusterName (h : clusterName clusters name ≠ name) :
    clusters.find? (Text.beginsWith name) = some (clusterName clusters name) := by
  unfold clusterName at h ⊢
  cases hfind : clusters.find? (Text.beginsWith name) with
  | none => simp [hfind] at h
  | some c => rfl

/-- The first cluster that fits a name is the first one for everything between the two. -/
theorem find?_between (h : clusters.find? (Text.beginsWith name) = some c) {middle : String}
    (hc : c.toList <+: middle.toList) (hmiddle : middle.toList <+: name.toList) :
    clusters.find? (Text.beginsWith middle) = some c := by
  rw [List.find?_eq_some_iff_append] at h ⊢
  obtain ⟨_, before, after, hsplit, hbefore⟩ := h
  refine ⟨Text.beginsWith_iff.2 hc, before, after, hsplit, ?_⟩
  intro d hd
  have hname := hbefore d hd
  simp only [Bool.not_eq_true', ← Bool.not_eq_true] at hname ⊢
  intro hfits
  exact hname (Text.beginsWith_iff.2 ((Text.beginsWith_iff.1 hfits).trans hmiddle))

theorem prefix_of_find? (h : clusters.find? (Text.beginsWith name) = some c) : c.toList <+: name.toList :=
  Text.beginsWith_iff.1 (List.find?_some h)

theorem taken_of_find? (h : clusters.find? (Text.beginsWith name) = some c) : Taken clusters c :=
  find?_between h (List.prefix_refl _) (prefix_of_find? h)

/-- A name that is replaced goes on after its cluster. -/
theorem exists_next_of_clusterName (h : clusterName clusters name ≠ name) : ∃ next rest,
    name.toList = (clusterName clusters name).toList ++ next :: rest := by
  obtain ⟨tail, htail⟩ := prefix_of_find? (find?_of_clusterName h)
  cases tail with
  | nil =>
    rw [List.append_nil, String.toList_inj] at htail
    exact absurd htail h
  | cons next rest => exact ⟨next, rest, htail.symm⟩

/-! ## Names that leave their directories -/

/-- A name that goes on after the cluster in letters only, for longer than any cluster does. -/
def longName (clusters : List String) (c : String) : String :=
  String.ofList (c.toList ++ List.replicate ((clusters.map String.toList).flatten.length + 1) 'x')

theorem toList_longName (clusters : List String) (c : String) :
    (longName clusters c).toList = c.toList ++ List.replicate ((clusters.map String.toList).flatten.length + 1) 'x' :=
  String.toList_ofList

/-- The cluster of the long name is the given one, with some of the letters. -/
theorem exists_find?_longName (h : Taken clusters c) :
    ∃ d k, clusters.find? (Text.beginsWith (longName clusters c)) = some d ∧
      d.toList = c.toList ++ List.replicate k 'x' ∧ k ≤ (clusters.map String.toList).flatten.length := by
  have hc : c.toList <+: (longName clusters c).toList := by simp [toList_longName]
  have hsome : (clusters.find? (Text.beginsWith (longName clusters c))).isSome = true := by
    rw [List.find?_isSome]
    exact ⟨c, List.mem_of_find?_eq_some h, Text.beginsWith_iff.2 hc⟩
  obtain ⟨d, hd⟩ := Option.isSome_iff_exists.1 hsome
  have hprefix := prefix_of_find? hd
  rcases List.prefix_or_prefix_of_prefix hprefix hc with hshort | ⟨letters, hletters⟩
  · have hsame := find?_between hd hshort hc
    rw [h] at hsame
    cases hsame
    exact ⟨c, 0, hd, by simp, by simp⟩
  · have hmem : d.toList ∈ clusters.map String.toList := List.mem_map.2 ⟨d, List.mem_of_find?_eq_some hd, rfl⟩
    have hlength := (List.sublist_flatten_of_mem hmem).length_le
    rw [← hletters, toList_longName, List.prefix_append_right_inj, List.prefix_replicate_iff] at hprefix
    refine ⟨d, letters.length, hd, ?_, ?_⟩
    · rw [← hletters, ← hprefix.2]
    · rw [← hletters, List.length_append] at hlength
      omega

theorem clusterName_longName (h : Taken clusters c) (hc : Text.endsIn c "/" = false) :
    clusterName clusters (longName clusters c) ≠ longName clusters c ∧
      ¬ Path.LiesIn (longName clusters c) (clusterName clusters (longName clusters c)) := by
  obtain ⟨d, k, hd, hletters, hk⟩ := exists_find?_longName h
  obtain ⟨more, hmore⟩ := Nat.exists_eq_add_of_le hk
  have hname : clusterName clusters (longName clusters c) = d := by simp [clusterName, hd]
  have hnext : (longName clusters c).toList = d.toList ++ 'x' :: List.replicate more 'x' := by
    rw [toList_longName, hletters, hmore, ← List.replicate_succ, Nat.add_assoc, ← List.replicate_append_replicate,
      List.append_assoc]
  have hend : ¬ Text.endsIn d "/" = true := by
    rw [Path.endsIn_slash_iff, hletters]
    cases k with
    | zero => simpa [← Path.endsIn_slash_iff] using hc
    | succ k => simp [List.getLast?_append, List.getLast?_replicate]
  rw [hname]
  constructor
  · intro he
    rw [he] at hnext
    simpa using congrArg List.length hnext
  · rw [Path.liesIn_iff hnext]
    simp [hend]

end

end Depends

namespace Ref

def StaysInDirectory (clusters : List String) (r : Ref) : Prop :=
  ∀ name c, r.name = some name → (r.inCluster clusters).name = some c → c ≠ name → Path.LiesIn name c

/-- Every reference stays in its directory if and only if every cluster that is taken ends in a slash. -/
theorem staysInDirectory_iff (clusters : List String) :
    (∀ r : Ref, r.StaysInDirectory clusters) ↔ ∀ c, Depends.Taken clusters c → Text.endsIn c "/" = true := by
  constructor
  · intro hstays c hc
    by_contra hend
    rw [Bool.not_eq_true] at hend
    obtain ⟨hne, hout⟩ := Depends.clusterName_longName hc hend
    exact hout (hstays ⟨some "", some (Depends.longName clusters c)⟩ _ _ rfl rfl hne)
  · intro hends r name c hname hc hne
    obtain ⟨root, _⟩ := r
    cases hname
    cases root with
    | none =>
      cases hc
      exact absurd rfl hne
    | some root =>
      cases hc
      have hfind := Depends.find?_of_clusterName hne
      exact .inr ⟨hends _ (Depends.taken_of_find? hfind), Depends.prefix_of_find? hfind⟩

end Ref

namespace Tools

theorem cluster_by_start (clusters : List String) (root name : String) : ∃ c,
    Depends.cluster (clusters.map .str) (.str root) (.str name) = .ok (.str root, .str c) ∧
      (c ≠ name → (∃ before after, clusters = before ++ c :: after ∧ ∀ d ∈ before, ¬ d.toList <+: name.toList) ∧
        ∃ next rest, name.toList = c.toList ++ next :: rest ∧
          (Path.LiesIn name c ↔ Text.endsIn c "/" = true ∨ next = '/')) := by
  refine ⟨Depends.clusterName clusters name, ?_, fun hne => ⟨?_, ?_⟩⟩
  · have hnamed : (Ref.mk (some root) (some name)).Named := fun _ => rfl
    exact Depends.cluster_parts hnamed clusters
  · obtain ⟨_, before, after, hsplit, hbefore⟩ :=
      List.find?_eq_some_iff_append.1 (Depends.find?_of_clusterName hne)
    refine ⟨before, after, hsplit, fun d hd => ?_⟩
    rw [← Text.beginsWith_iff]
    simpa using hbefore d hd
  · obtain ⟨next, rest, hnext⟩ := Depends.exists_next_of_clusterName hne
    exact ⟨next, rest, hnext, Path.liesIn_iff hnext⟩

/-- **Clusters are starts of names.** A name is replaced by the first cluster with which it starts, and what comes next
in the name decides whether it lies in that directory. The program writes the dependencies between the names that are
left, so it brings names from outside of a directory into its node, unless every cluster that is taken ends in a
slash. -/
theorem clusters_by_starts (clusters : List String) :
    (∀ root name : String, ∃ c,
      Depends.cluster (clusters.map .str) (.str root) (.str name) = .ok (.str root, .str c) ∧
      (c ≠ name → (∃ before after, clusters = before ++ c :: after ∧ ∀ d ∈ before, ¬ d.toList <+: name.toList) ∧
        ∃ next rest, name.toList = c.toList ++ next :: rest ∧
          (Path.LiesIn name c ↔ Text.endsIn c "/" = true ∨ next = '/'))) ∧
    ((∀ r : Ref, r.StaysInDirectory clusters) ↔ ∀ c, Depends.Taken clusters c → Text.endsIn c "/" = true) ∧
    ∀ (arguments : List String) (s : Session) (input : String),
      givenClusters arguments s = .ok (clusters.map .str) s → Depends.WellFormed input →
      ∃ ps, ClusteredLines clusters input ps ∧
        (Program.cluster.execute arguments input s).1.status = .code 0 ∧
        (Program.cluster.execute arguments input s).1.console.out = Depends.page (ps.map Dependency.value) := by
  refine ⟨cluster_by_start clusters, Ref.staysInDirectory_iff clusters, fun arguments s input hgiven hinput => ?_⟩
  exact execute_clustered hgiven hinput

/-- A file of one directory depends on a file of another, whose name goes on where the name of the first ends. -/
def acrossDirectories : Dependency where
  source := ⟨some "/myproject", some "pack1/person.py"⟩
  target := ⟨some "/myproject", some "pack10/person.py"⟩

/-- The file is not in the directory that takes its place, and nothing is left of the dependency. -/
theorem cluster_outside_directory :
    Depends.cluster [.str "pack1"] (.str "/myproject") (.str "pack10/person.py") =
        .ok (.str "/myproject", .str "pack1") ∧
      "pack1" ≠ "pack10/person.py" ∧ ¬ Path.LiesIn "pack10/person.py" "pack1" ∧
      acrossDirectories.inClusters ["pack1"] = ⟨⟨some "/myproject", some "pack1"⟩, .nothing⟩ := by
  have hnext : "pack10/person.py".toList = "pack1".toList ++ '0' :: "/person.py".toList := by decide
  refine ⟨rfl, by decide, ?_, rfl⟩
  rw [Path.liesIn_iff hnext]
  decide

theorem clusters_across_directories :
    givenClusters ["--", "pack1"] circle = .ok (["pack1"].map .str) circle ∧
      Depends.WellFormed (Depends.page ([acrossDirectories].map Dependency.value)) ∧
      ¬ (∀ r : Ref, r.StaysInDirectory ["pack1"]) ∧
      ∃ ps, ClusteredLines ["pack1"] (Depends.page ([acrossDirectories].map Dependency.value)) ps ∧
        (Program.cluster.execute ["--", "pack1"] (Depends.page ([acrossDirectories].map Dependency.value))
          circle).1.console.out = Depends.page (ps.map Dependency.value) := by
  have hgiven := givenClusters_dashes ["pack1"] circle
  have hnamed : ∀ d ∈ [acrossDirectories], d.Named := by
    intro d hd
    rw [List.mem_singleton.1 hd]
    exact ⟨fun _ => rfl, fun _ => rfl⟩
  have hinput := Depends.wellFormed_page hnamed
  obtain ⟨_, hstays, hrun⟩ := clusters_by_starts ["pack1"]
  obtain ⟨ps, hps, _, hout⟩ := hrun _ _ _ hgiven hinput
  refine ⟨hgiven, hinput, ?_, ps, hps, hout⟩
  rw [hstays]
  intro hends
  exact absurd (hends "pack1" (by decide)) (by decide)

end Tools

end ImportAtlas
