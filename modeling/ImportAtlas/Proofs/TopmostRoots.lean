import ImportAtlas.Proofs.PackageRoots
import ImportAtlas.Proofs.TopDownWalks

/-!
# Topmost roots

The search for package roots below a directory turns back at every root and at every name that is passed over. So it
finds the roots that are reached through real directories under other names and lie below no root on the way, each of
them once; no root that it finds lies below another.
-/

namespace ImportAtlas

/-! ## Searches that always answer -/

theorem except_bind_of_ok {ε α β : Type} {x : Except ε α} {a : α} (h : x = .ok a) (f : α → Except ε β) :
    x >>= f = f a := by
  rw [h]
  rfl

theorem forM_ok {ε α : Type} {f : α → Except ε Unit} {xs : List α} (h : ∀ x ∈ xs, f x = .ok ()) :
    xs.forM f = .ok () := by
  induction xs with
  | nil => rfl
  | cons x xs ih =>
    obtain ⟨hx, hxs⟩ := List.forall_mem_cons.1 h
    exact (except_bind_of_ok hx _).trans (ih hxs)

theorem anyM_ok {ε α : Type} {f : α → Except ε Bool} {xs : List α} (h : ∀ x ∈ xs, ∃ b, f x = .ok b) :
    ∃ b, xs.anyM f = .ok b := by
  induction xs with
  | nil => exact ⟨false, rfl⟩
  | cons x xs ih =>
    obtain ⟨⟨b, hx⟩, hxs⟩ := List.forall_mem_cons.1 h
    rw [List.anyM, hx]
    cases b with
    | true => exact ⟨true, rfl⟩
    | false => exact ih hxs

namespace Ignores

theorem has_ok {ignores : Ignores} (h : ignores ≠ .unusable) (name : String) : ∃ b, ignores.has name = .ok b := by
  cases ignores with
  | names known => exact ⟨_, rfl⟩
  | piecesOf text => exact ⟨_, rfl⟩
  | unusable => exact absurd rfl h

theorem discard_has {ignores : Ignores} (h : ignores ≠ .unusable) (name : String) :
    (discard (ignores.has name) : Except Fault Unit) = .ok () := by
  obtain ⟨b, hb⟩ := has_ok h name
  rw [hb]
  rfl

end Ignores

namespace FileSystem

variable {fs : FileSystem}

theorem isPackageRoot_ok {ignores : Ignores} (h : ignores ≠ .unusable) {dir : String} (hdir : fs.isDir dir = true) :
    ∃ b, fs.isPackageRoot ignores dir = .ok b := by
  obtain ⟨items, hitems⟩ := isDir_iff.1 hdir
  have hnames : fs.names dir = .ok (items.map (·.1)) := by
    unfold FileSystem.names
    rw [hitems]
    rfl
  have hin : ∀ name, ∃ b, fs.isPackageIn ignores dir name = .ok b := by
    intro name
    obtain ⟨ignored, hignored⟩ := Ignores.has_ok h name
    unfold isPackageIn
    rw [hignored]
    split
    · exact ⟨false, rfl⟩
    · cases ignored with
      | true => exact ⟨false, rfl⟩
      | false => exact ⟨_, rfl⟩
  unfold isPackageRoot
  split
  · exact ⟨false, rfl⟩
  · rw [except_bind_of_ok hnames, except_bind_of_ok (separate_ok _ _)]
    dsimp only
    rw [except_bind_of_ok (forM_ok fun name _ => Ignores.discard_has h name)]
    split
    · exact ⟨true, rfl⟩
    · exact anyM_ok fun name _ => hin name

/-! ## The search -/

def isRoot (fs : FileSystem) (ignores : List String) (dir : String) : Bool :=
  (fs.isPackageRoot (.names ignores) dir).toOption.getD false

theorem isRoot_iff {ignores : List String} {dir : String} :
    fs.isRoot ignores dir = true ↔ fs.isPackageRoot (.names ignores) dir = .ok true := by
  unfold isRoot
  cases fs.isPackageRoot (.names ignores) dir with
  | error fault => simp [Except.toOption]
  | ok b => simp [Except.toOption]

def goesOn (fs : FileSystem) (ignores : List String) (dir name : String) : Bool :=
  !fs.isRoot ignores dir && decide (name ∉ ignores)

theorem allowed_goesOn_iff {ignores : List String} {top : String} {way : List String} :
    Entry.Allowed (fs.goesOn ignores) top way ↔ (∀ name ∈ way, name ∉ ignores) ∧
      ∀ front, front <+: way → front ≠ way → fs.isRoot ignores (Path.under top front) = false := by
  induction way generalizing top with
  | nil =>
    refine ⟨fun _ => ⟨List.forall_mem_nil _, fun front hfront hne => ?_⟩, fun _ => trivial⟩
    exact absurd (List.prefix_nil.1 hfront) hne
  | cons name way ih =>
    rw [Entry.Allowed, ih, goesOn, Bool.and_eq_true, Bool.not_eq_true', decide_eq_true_eq, List.forall_mem_cons]
    constructor
    · rintro ⟨⟨htop, hname⟩, hway, hfronts⟩
      refine ⟨⟨hname, hway⟩, fun front hfront hne => ?_⟩
      rcases List.prefix_cons_iff.1 hfront with rfl | ⟨rest, rfl, hrest⟩
      · exact htop
      · exact hfronts rest hrest fun heq => hne (by rw [heq])
    · rintro ⟨⟨hname, hway⟩, hfronts⟩
      refine ⟨⟨hfronts [] List.nil_prefix (by simp), hname⟩, hway, fun front hfront hne => ?_⟩
      refine hfronts (name :: front) (List.cons_prefix_cons.2 ⟨rfl, hfront⟩) fun heq => hne (List.cons.inj heq).2

theorem rootsBelow_eq (hfs : fs.root.wellNamed = true) {ignores : List String} {dir : String} {e : Entry}
    (hdir : fs.isDir dir = true) (he : fs.locate dir = .ok e) :
    fs.rootsBelow (.names ignores) dir =
      .ok (((e.entered (fs.goesOn ignores) dir).map fun p => Path.under dir p.1).filter (fs.isRoot ignores)) := by
  have hnames : Ignores.names ignores ≠ .unusable := fun h => by cases h
  have hkeep : ∀ d dirs, (if (fs.isPackageRoot (.names ignores) d).toOption.getD false then []
      else (Ignores.names ignores).remaining dirs) = dirs.filter (fs.goesOn ignores d) := by
    intro d dirs
    rw [Ignores.remaining_names, unignored]
    unfold goesOn isRoot
    cases (fs.isPackageRoot (.names ignores) d).toOption.getD false with
    | true => simp
    | false => simp
  have hvisits : ∀ v ∈ (e.entered (fs.goesOn ignores) dir).map fun p => fs.visitOf (Path.under dir p.1) p.2, (do
      v.dirs.forM fun name => discard ((Ignores.names ignores).has name)
      discard (fs.isPackageRoot (.names ignores) v.dir) : Except Fault Unit) = .ok () := by
    intro v hv
    obtain ⟨p, hp, rfl⟩ := List.mem_map.1 hv
    obtain ⟨b, hb⟩ :=
      isPackageRoot_ok hnames (isDir_under hfs he ((Entry.mem_entered_iff (wellNamed_of_locate hfs he)).1 hp).1)
    rw [except_bind_of_ok (forM_ok fun name _ => Ignores.discard_has hnames name)]
    change discard (fs.isPackageRoot (.names ignores) (Path.under dir p.1)) = _
    rw [hb]
    rfl
  unfold rootsBelow
  simp only [if_pos hdir]
  rw [walk_eq hkeep he, except_bind_of_ok (forM_ok hvisits), List.map_map]
  rfl

/-- The way leads through real directories, none of them passed over, to a root, and meets no other before. -/
structure TopmostRoot (fs : FileSystem) (ignores : List String) (top : String) (way : List String) : Prop where
  reached : ∃ e items, fs.locate top = .ok e ∧ e.get? way = some (.dir items)
  named : ∀ name ∈ way, name ∉ ignores
  root : fs.isPackageRoot (.names ignores) (Path.under top way) = .ok true
  first : ∀ front, front <+: way → front ≠ way → fs.isPackageRoot (.names ignores) (Path.under top front) ≠ .ok true

theorem TopmostRoot.isPart (hfs : fs.root.wellNamed = true) {ignores : List String} {top : String} {way : List String}
    (h : TopmostRoot fs ignores top way) : ∀ name ∈ way, Path.IsPart name := by
  obtain ⟨e, items, he, hget⟩ := h.reached
  exact Entry.isPart_of_get? (wellNamed_of_locate hfs he) hget

theorem mem_rootsBelow_iff (hfs : fs.root.wellNamed = true) {ignores : List String} {dir : String}
    {items : List (String × Entry)} (he : fs.locate dir = .ok (.dir items)) {r : String} :
    r ∈ (((Entry.dir items).entered (fs.goesOn ignores) dir).map fun p => Path.under dir p.1).filter
      (fs.isRoot ignores) ↔
      ∃ way, TopmostRoot fs ignores dir way ∧ r = Path.under dir way := by
  have hnamed := wellNamed_of_locate hfs he
  rw [List.mem_filter, List.mem_map, isRoot_iff]
  constructor
  · rintro ⟨⟨p, hp, rfl⟩, hroot⟩
    obtain ⟨hget, hallowed⟩ := (Entry.mem_entered_iff hnamed).1 hp
    obtain ⟨hway, hfronts⟩ := allowed_goesOn_iff.1 hallowed
    refine ⟨p.1, ⟨⟨_, p.2, he, hget⟩, hway, hroot, fun front hfront hne => ?_⟩, rfl⟩
    rw [ne_eq, ← isRoot_iff, hfronts front hfront hne]
    exact Bool.false_ne_true
  · rintro ⟨way, h, rfl⟩
    obtain ⟨e, own, he', hget⟩ := h.reached
    cases he.symm.trans he'
    refine ⟨⟨(way, own), (Entry.mem_entered_iff hnamed).2 ⟨hget, allowed_goesOn_iff.2 ⟨h.named, ?_⟩⟩, rfl⟩, h.root⟩
    intro front hfront hne
    rw [← Bool.not_eq_true, isRoot_iff]
    exact h.first front hfront hne

/-- **The topmost roots.** The search below a directory answers, and finds exactly the roots that are the directory
itself or are reached from it through real directories that are not passed over, and that come before any other root on
the way. Each is found once, and none lies below another. -/
theorem roots_topmost (hfs : fs.root.wellNamed = true) (ignores : List String) {dir : String}
    (hdir : fs.isDir dir = true) : ∃ roots, fs.rootsBelow (.names ignores) dir = .ok roots ∧ roots.Nodup ∧
    (∀ r, r ∈ roots ↔ ∃ way, TopmostRoot fs ignores dir way ∧ r = Path.under dir way) ∧
    ∀ r ∈ roots, ∀ r' ∈ roots, ∀ way, (∀ name ∈ way, Path.IsPart name) → r' = Path.under r way → way = [] := by
  obtain ⟨items, he⟩ := isDir_iff.1 hdir
  have hnamed := wellNamed_of_locate hfs he
  refine ⟨_, rootsBelow_eq hfs hdir he, ?_, fun r => mem_rootsBelow_iff hfs he, ?_⟩
  · exact (Entry.nodup_under hnamed dir).filter _
  · intro r hr r' hr' way hway hbelow
    obtain ⟨front, hfront, rfl⟩ := (mem_rootsBelow_iff hfs he).1 hr
    obtain ⟨whole, hwhole, rfl⟩ := (mem_rootsBelow_iff hfs he).1 hr'
    rw [← Path.under_append] at hbelow
    have hparts : ∀ name ∈ front ++ way, Path.IsPart name := List.forall_mem_append.2 ⟨hfront.isPart hfs, hway⟩
    obtain rfl := Path.under_inj (hwhole.isPart hfs) hparts hbelow
    -- the root above would have been met first
    by_contra hne
    exact hwhole.first front (List.prefix_append front way) (by simpa using hne) hfront.root

end FileSystem

namespace TopmostRoots

def package : Entry := .dir [("__init__.py", .file (.plain ""))]

def inner : List (String × Entry) := [("p", package), ("sub", .dir [("p", package)])]

/-- Two roots, one of them with another below it, a third that is linked to and one under a name to pass over. -/
def work : FileSystem where
  root := .dir [("w", .dir [("a", .dir inner), ("link", .link "a"), ("z", .dir [("b", .dir [("p", package)])]),
    ("old", .dir [("p", package)])])]
  cwd := "/w"

theorem inner_root : FileSystem.TopmostRoot work ["old"] "/w" ["a"] where
  reached := ⟨_, inner, rfl, rfl⟩
  named := by decide
  root := by decide +kernel
  first front hfront hne := by
    rcases List.prefix_cons_iff.1 hfront with rfl | ⟨rest, rfl, hrest⟩
    · decide +kernel
    · exact absurd (by rw [List.prefix_nil.1 hrest]) hne

end TopmostRoots

theorem roots_topmost_work : ∃ roots, TopmostRoots.work.rootsBelow (.names ["old"]) "/w" = .ok roots ∧ roots.Nodup ∧
    "/w/a" ∈ roots ∧ "/w/a/sub" ∉ roots := by
  have hdir : TopmostRoots.work.isDir "/w" = true := by decide +kernel
  obtain ⟨roots, hroots, hnodup, hmem, hbelow⟩ := FileSystem.roots_topmost (by decide) ["old"] hdir
  have ha : "/w/a" ∈ roots := (hmem _).2 ⟨["a"], TopmostRoots.inner_root, by decide +kernel⟩
  refine ⟨roots, hroots, hnodup, ha, fun hsub => ?_⟩
  have hnothing := hbelow _ ha _ hsub ["sub"] (by simp [Path.IsPart]) (by decide +kernel)
  cases hnothing

end ImportAtlas
