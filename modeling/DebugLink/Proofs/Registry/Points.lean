import DebugLink.Proofs.Registry.Table
import Mathlib.Data.List.Nodup

/-!
# Telling a debuggee about changed points

The breakpoints of a registry stay in strict order, so that there is one at a place. Each
operation replaces the point of one key, and its requests do the same to the table of a
debuggee: a table that mirrors the registry mirrors the changed registry behind them. This rests
on the points being written differently: a debuggee does not know what a path means.
-/

namespace DebugLink

/-- A list holds what another one holds, except that what has a key is replaced. -/
structure Replaces {α κ : Type} (key : α → κ) (changed : κ) (new : Option α)
    (old list : List α) : Prop where
  /-- What is new has the key. -/
  key_eq : ∀ a, new = some a → key a = changed
  /-- The list holds what is new, and all old elements that do not have the key. -/
  mem : ∀ a, a ∈ list ↔ new = some a ∨ a ∈ old ∧ key a ≠ changed

/-- What has one key is replaced when what has another one is, if the same elements have them. -/
theorem Replaces.of_key {α κ ι : Type} {key : α → κ} {key' : α → ι} {old' : κ} {changed : ι}
    {new : Option α} {old list : List α} (h : Replaces key old' new old list)
    (hn : ∀ a, new = some a → key' a = changed)
    (hk : ∀ a ∈ old, key a = old' ↔ key' a = changed) : Replaces key' changed new old list where
  key_eq := hn
  mem a := (h.mem a).trans (or_congr_right (and_congr_right fun ha => not_congr (hk a ha)))

/-- An element of a list whose keys differ is replaced where it stands. -/
theorem replaces_split {α κ : Type} {key : α → κ} {front back : List α} {old : α}
    {new : Option α} (hn : ((front ++ old :: back).map key).Nodup)
    (hk : ∀ a, new = some a → key a = key old) :
    Replaces key (key old) new (front ++ old :: back) (front ++ new.toList ++ back) where
  key_eq := hk
  mem a := by
    rw [List.map_append, List.map_cons, List.nodup_middle, List.nodup_cons] at hn
    have hother : a ∈ front ∨ a ∈ back → key a ≠ key old := fun ha heq => by
      refine hn.1 ?_
      rw [← heq, List.mem_append]
      exact ha.imp List.mem_map_of_mem List.mem_map_of_mem
    simp only [List.mem_append, List.mem_cons, Option.mem_toList]
    constructor
    · rintro ((ha | ha) | ha)
      · exact .inr ⟨.inl ha, hother (.inl ha)⟩
      · exact .inl ha
      · exact .inr ⟨.inr (.inr ha), hother (.inr ha)⟩
    · rintro (ha | ⟨ha | rfl | ha, hne⟩)
      · exact .inl (.inr ha)
      · exact .inl (.inl ha)
      · exact absurd rfl hne
      · exact .inr ha

/-- To change the elements of a key, of which there is one, is to replace that one. -/
theorem replaces_map {α κ : Type} {key : α → κ} {list : List α} {old : α} {p : α → Bool}
    {change : α → α} (hn : (list.map key).Nodup) (ho : old ∈ list)
    (hp : ∀ a, p a = true ↔ key a = key old) (hc : key (change old) = key old) :
    Replaces key (key old) (some (change old)) list
      (list.map fun a => if p a then change a else a) where
  key_eq a ha := by rw [← Option.some.inj ha, hc]
  mem a := by
    rw [List.mem_map, Option.some.injEq]
    constructor
    · rintro ⟨b, hb, rfl⟩
      by_cases hk : p b = true
      · rw [if_pos hk, List.inj_on_of_nodup_map hn hb ho ((hp b).mp hk)]
        exact .inl rfl
      · rw [if_neg hk]
        exact .inr ⟨hb, mt (hp b).mpr hk⟩
    · rintro (rfl | ⟨ha, hk⟩)
      · exact ⟨old, ho, if_pos ((hp old).mpr rfl)⟩
      · exact ⟨a, ha, if_neg (mt (hp a).mp hk)⟩

/-! ## The order of breakpoints -/

/-- Places are compared as pairs are. -/
instance : Std.TransCmp Place.order :=
  inferInstanceAs (Std.TransCmp (compareLex (compareOn Place.path) (compareOn Place.line)))

/-- Only a place itself is in its place of the order. -/
theorem Place.eq_of_order {a b : Place} (h : a.order b = .eq) : a = b := by
  obtain ⟨hpath, hline⟩ := Ordering.then_eq_eq.mp h
  cases a
  cases b
  rw [mk.injEq]
  exact ⟨Std.LawfulEqCmp.eq_of_compare hpath, Std.LawfulEqCmp.eq_of_compare hline⟩

/-- A place in front of another one is not that one. -/
theorem Place.ne_of_order {a b : Place} (h : a.order b = .lt) : a ≠ b := by
  rintro rfl
  have hself : a.order a = .eq := Std.ReflCmp.compare_self
  rw [hself] at h
  cases h

/-- Breakpoints in the order of their places, one at a place. -/
def Breakpoint.IsSorted (list : List Breakpoint) : Prop :=
  list.Pairwise fun a b => a.place.order b.place = .lt

namespace Breakpoint

variable {list : List Breakpoint}

/-- Sorted breakpoints are at different places. -/
theorem nodup_of_isSorted (h : IsSorted list) : (list.map place).Nodup :=
  List.pairwise_map.mpr (List.Pairwise.imp (fun hab => Place.ne_of_order hab) h)

/-- What a change leaves alone stays the same, whether a breakpoint is changed or not. -/
theorem apply_change_if {κ : Type} {f : Breakpoint → κ} {change : Breakpoint → Breakpoint}
    (hc : ∀ breakpoint, f (change breakpoint) = f breakpoint) (p : Prop) [Decidable p]
    (breakpoint : Breakpoint) : f (if p then change breakpoint else breakpoint) = f breakpoint := by
  split
  · exact hc breakpoint
  · rfl

/-- A sorted list stays sorted when its breakpoints are changed at their places. -/
theorem isSorted_map (h : IsSorted list) {change : Breakpoint → Breakpoint}
    (hc : ∀ breakpoint, (change breakpoint).place = breakpoint.place) :
    IsSorted (list.map change) := by
  refine List.pairwise_map.mpr (List.Pairwise.imp (fun hab => ?_) h)
  rwa [hc, hc]

/-- A breakpoint is put into a sorted list in place of the one at the same place. -/
theorem replaces_insertInto (h : IsSorted list) (breakpoint : Breakpoint) :
    Replaces place breakpoint.place (some breakpoint) list (breakpoint.insertInto list) where
  key_eq _ ha := by rw [Option.some.inj ha]
  mem a := by
    rw [Option.some.injEq, eq_comm (a := breakpoint)]
    induction list with
    | nil => simp [insertInto]
    | cons other rest ih =>
      obtain ⟨hother, hrest⟩ := List.pairwise_cons.mp h
      rw [insertInto]
      cases ho : breakpoint.place.order other.place with
      | lt =>
        have hne : ∀ b ∈ other :: rest, b.place ≠ breakpoint.place := by
          intro b hb
          rcases List.mem_cons.mp hb with rfl | hb
          · exact (Place.ne_of_order ho).symm
          · exact (Place.ne_of_order (Std.TransCmp.lt_trans ho (hother b hb))).symm
        rw [List.mem_cons (b := breakpoint)]
        exact or_congr_right ⟨fun ha => ⟨ha, hne a ha⟩, And.left⟩
      | eq =>
        have heq := Place.eq_of_order ho
        have hne : ∀ b ∈ rest, b.place ≠ breakpoint.place := by
          intro b hb
          rw [heq]
          exact (Place.ne_of_order (hother b hb)).symm
        simp only [List.mem_cons]
        refine or_congr_right ⟨fun ha => ⟨.inr ha, hne a ha⟩, fun ha => ?_⟩
        rcases ha with ⟨rfl | ha, hplace⟩
        · exact absurd heq.symm hplace
        · exact ha
      | gt =>
        have hne : other.place ≠ breakpoint.place :=
          Place.ne_of_order (Std.OrientedCmp.gt_iff_lt.mp ho)
        simp only [List.mem_cons, ih hrest]
        constructor
        · rintro (rfl | ha | ⟨ha, hplace⟩)
          · exact .inr ⟨.inl rfl, hne⟩
          · exact .inl ha
          · exact .inr ⟨.inr ha, hplace⟩
        · rintro (ha | ⟨rfl | ha, hplace⟩)
          · exact .inr (.inl ha)
          · exact .inl rfl
          · exact .inr (.inr ⟨ha, hplace⟩)

/-- A sorted list stays sorted when a breakpoint is put into it. -/
theorem isSorted_insertInto (h : IsSorted list) (breakpoint : Breakpoint) :
    IsSorted (breakpoint.insertInto list) := by
  induction list with
  | nil => exact List.pairwise_singleton _ _
  | cons other rest ih =>
    obtain ⟨hother, hrest⟩ := List.pairwise_cons.mp h
    rw [insertInto]
    cases ho : breakpoint.place.order other.place with
    | lt =>
      refine List.pairwise_cons.mpr ⟨fun b hb => ?_, h⟩
      rcases List.mem_cons.mp hb with rfl | hb
      · exact ho
      · exact Std.TransCmp.lt_trans ho (hother b hb)
    | eq =>
      rw [← Place.eq_of_order ho] at hother
      exact List.pairwise_cons.mpr ⟨hother, hrest⟩
    | gt =>
      refine List.pairwise_cons.mpr ⟨fun b hb => ?_, ih hrest⟩
      rcases ((replaces_insertInto hrest breakpoint).mem b).mp hb with hb | ⟨hb, -⟩
      · rw [← Option.some.inj hb]
        exact Std.OrientedCmp.gt_iff_lt.mp ho
      · exact hother b hb

end Breakpoint

/-! ## Tables that mirror a registry -/

/-- The points of a registry, each with what a debuggee knows it by and keeps about it. -/
def Registry.points (registry : Registry) : List (WireKey × PointEntry) :=
  registry.breakpoints.map (fun breakpoint => (breakpoint.key, breakpoint.entry)) ++
    registry.watchpoints.map fun watchpoint => (watchpoint.key, watchpoint.entry)

/-- A table holds exactly the points of a registry. -/
structure Mirrors (table : PointTable) (registry : Registry) : Prop where
  /-- Different points are known by different keys. -/
  distinct : (registry.points.map Prod.fst).Nodup
  /-- The table holds the points with their entries, and nothing else. -/
  entries : ∀ key entry, table key = some entry ↔ (key, entry) ∈ registry.points

/-- A registry whose points a debuggee can tell apart. -/
structure Registry.IsProper (registry : Registry) : Prop where
  /-- The breakpoints are sorted. -/
  sorted : Breakpoint.IsSorted registry.breakpoints
  /-- The breakpoints are written differently. -/
  breakpoints : (registry.breakpoints.map Breakpoint.key).Nodup
  /-- The watchpoints are written differently. -/
  watchpoints : (registry.watchpoints.map Watchpoint.key).Nodup

/-- Registries with the same points; what else they remember may differ. -/
structure Registry.SamePoints (registry changed : Registry) : Prop where
  /-- The breakpoints are the same. -/
  breakpoints : changed.breakpoints = registry.breakpoints
  /-- The watchpoints are the same. -/
  watchpoints : changed.watchpoints = registry.watchpoints

instance (registry changed : Registry) : Decidable (registry.SamePoints changed) :=
  decidable_of_iff (changed.breakpoints = registry.breakpoints ∧
    changed.watchpoints = registry.watchpoints) ⟨fun h => ⟨h.1, h.2⟩, fun h => ⟨h.1, h.2⟩⟩

namespace Registry

variable {registry changed : Registry}

/-- A registry is proper by its points. -/
theorem IsProper.of_samePoints (h : registry.IsProper) (hs : registry.SamePoints changed) :
    changed.IsProper where
  sorted := by rw [hs.breakpoints]; exact h.sorted
  breakpoints := by rw [hs.breakpoints]; exact h.breakpoints
  watchpoints := by rw [hs.watchpoints]; exact h.watchpoints

/-- In a proper registry, breakpoints are at one place if they are written in one way. -/
theorem IsProper.place_eq_iff (h : registry.IsProper) {a b : Breakpoint}
    (ha : a ∈ registry.breakpoints) (hb : b ∈ registry.breakpoints) :
    a.place = b.place ↔ a.key = b.key := by
  have hplace : a.place = b.place ↔ a = b :=
    ⟨List.inj_on_of_nodup_map (Breakpoint.nodup_of_isSorted h.sorted) ha hb, congrArg _⟩
  exact hplace.trans ⟨congrArg _, List.inj_on_of_nodup_map h.breakpoints ha hb⟩

/-- The points of a proper registry have different keys. -/
theorem IsProper.nodup (h : registry.IsProper) : (registry.points.map Prod.fst).Nodup := by
  rw [points, List.map_append, List.map_map, List.map_map, List.nodup_append]
  refine ⟨h.breakpoints, h.watchpoints, fun a ha b hb heq => ?_⟩
  obtain ⟨breakpoint, -, rfl⟩ := List.mem_map.mp ha
  obtain ⟨watchpoint, -, rfl⟩ := List.mem_map.mp hb
  cases heq

end Registry

/-- What replaces an element of a list replaces what the list is turned into, between things that
have other keys. -/
theorem Replaces.map {α β κ : Type} {key : α → κ} {key' : β → κ} {changed : κ} {new : Option α}
    {old list : List α} (h : Replaces key changed new old list) (f : α → β)
    (hk : ∀ a, key' (f a) = key a) (front back : List β)
    (hother : ∀ b ∈ front ++ back, key' b ≠ changed) :
    Replaces key' changed (new.map f) (front ++ old.map f ++ back)
      (front ++ list.map f ++ back) where
  key_eq b hb := by
    obtain ⟨a, ha, rfl⟩ := Option.map_eq_some_iff.mp hb
    rw [hk, h.key_eq a ha]
  mem b := by
    have hmap : b ∈ list.map f ↔ new.map f = some b ∨ b ∈ old.map f ∧ key' b ≠ changed := by
      simp only [List.mem_map, Option.map_eq_some_iff, h.mem]
      constructor
      · rintro ⟨a, ha | ⟨ha, hne⟩, rfl⟩
        · exact .inl ⟨a, ha, rfl⟩
        · exact .inr ⟨⟨a, ha, rfl⟩, fun heq => hne ((hk a).symm.trans heq)⟩
      · rintro (⟨a, ha, rfl⟩ | ⟨⟨a, ha, rfl⟩, hne⟩)
        · exact ⟨a, .inl ha, rfl⟩
        · exact ⟨a, .inr ⟨ha, fun heq => hne ((hk a).trans heq)⟩, rfl⟩
    have hout := hother b
    simp only [List.mem_append] at hout ⊢
    rw [hmap]
    constructor
    · rintro ((hb | hb | ⟨hb, hne⟩) | hb)
      · exact .inr ⟨.inl (.inl hb), hout (.inl hb)⟩
      · exact .inl hb
      · exact .inr ⟨.inl (.inr hb), hne⟩
      · exact .inr ⟨.inr hb, hout (.inr hb)⟩
    · rintro (hb | ⟨(hb | hb) | hb, hne⟩)
      · exact .inl (.inr (.inl hb))
      · exact .inl (.inl hb)
      · exact .inl (.inr (.inr ⟨hb, hne⟩))
      · exact .inr hb

namespace Mirrors

variable {table : PointTable} {registry changed : Registry}

/-- Only the points of a registry matter. -/
theorem of_samePoints (h : Mirrors table registry) (hs : registry.SamePoints changed) :
    Mirrors table changed := by
  have hp : changed.points = registry.points := by
    rw [Registry.points, Registry.points, hs.breakpoints, hs.watchpoints]
  exact ⟨by rw [hp]; exact h.distinct, fun key entry => by rw [hp]; exact h.entries key entry⟩

/-- To replace a point of the registry is to replace its entry in the table. -/
theorem revise (h : Mirrors table registry) (hp : changed.IsProper) {key : WireKey}
    {new : Option (WireKey × PointEntry)}
    (hr : Replaces Prod.fst key new registry.points changed.points) :
    Mirrors (Function.update table key (new.map Prod.snd)) changed where
  distinct := hp.nodup
  entries key' entry := by
    rw [hr.mem]
    by_cases hk : key' = key
    · subst hk
      rw [Function.update_self, Option.map_eq_some_iff]
      constructor
      · rintro ⟨point, hnew, rfl⟩
        rw [hnew, ← hr.key_eq point hnew]
        exact .inl rfl
      · rintro (hnew | ⟨-, hne⟩)
        · exact ⟨_, hnew, rfl⟩
        · exact absurd rfl hne
    · rw [Function.update_of_ne hk, h.entries]
      refine ⟨fun ha => .inr ⟨ha, hk⟩, ?_⟩
      rintro (hnew | ⟨ha, -⟩)
      · exact absurd (hr.key_eq _ hnew) hk
      · exact ha

/-- To replace a breakpoint is to replace its entry. -/
theorem revise_breakpoint (h : Mirrors table registry) (hp : changed.IsProper)
    {breakpoint : Breakpoint} {new : Option Breakpoint}
    (hr : Replaces Breakpoint.key breakpoint.key new registry.breakpoints changed.breakpoints)
    (hw : changed.watchpoints = registry.watchpoints) :
    Mirrors (Function.update table breakpoint.key (new.map Breakpoint.entry)) changed := by
  have hpoints : Replaces Prod.fst breakpoint.key
      (new.map fun breakpoint => (breakpoint.key, breakpoint.entry)) registry.points
      changed.points := by
    have hother : ∀ point ∈ [] ++ registry.watchpoints.map fun watchpoint =>
        (watchpoint.key, watchpoint.entry), point.1 ≠ breakpoint.key := by
      simp [Watchpoint.key, Breakpoint.key]
    rw [Registry.points, Registry.points, hw]
    exact hr.map (fun breakpoint => (breakpoint.key, breakpoint.entry)) (fun _ => rfl) [] _ hother
  have hrevised := h.revise hp hpoints
  rwa [Option.map_map] at hrevised

/-- To replace a watchpoint is to replace its entry. -/
theorem revise_watchpoint (h : Mirrors table registry) (hp : changed.IsProper)
    {watchpoint : Watchpoint} {new : Option Watchpoint}
    (hr : Replaces Watchpoint.key watchpoint.key new registry.watchpoints changed.watchpoints)
    (hb : changed.breakpoints = registry.breakpoints) :
    Mirrors (Function.update table watchpoint.key (new.map Watchpoint.entry)) changed := by
  have hpoints : Replaces Prod.fst watchpoint.key
      (new.map fun watchpoint => (watchpoint.key, watchpoint.entry)) registry.points
      changed.points := by
    have hother : ∀ point ∈ (registry.breakpoints.map fun breakpoint =>
        (breakpoint.key, breakpoint.entry)) ++ [], point.1 ≠ watchpoint.key := by
      simp [Breakpoint.key, Watchpoint.key]
    have hmap := hr.map (fun watchpoint => (watchpoint.key, watchpoint.entry)) (fun _ => rfl) _ []
      hother
    rw [List.append_nil, List.append_nil] at hmap
    rw [Registry.points, Registry.points, hb]
    exact hmap
  have hrevised := h.revise hp hpoints
  rwa [Option.map_map] at hrevised

/-- A breakpoint of the registry is in the table. -/
theorem entry_breakpoint (h : Mirrors table registry) {breakpoint : Breakpoint}
    (hm : breakpoint ∈ registry.breakpoints) :
    table breakpoint.key = some breakpoint.entry :=
  (h.entries _ _).mpr (List.mem_append_left _ (List.mem_map_of_mem hm))

/-- A watchpoint of the registry is in the table. -/
theorem entry_watchpoint (h : Mirrors table registry) {watchpoint : Watchpoint}
    (hm : watchpoint ∈ registry.watchpoints) :
    table watchpoint.key = some watchpoint.entry :=
  (h.entries _ _).mpr (List.mem_append_right _ (List.mem_map_of_mem hm))

end Mirrors

/-! ## All points at once -/

namespace PointTable

/-- The table behind points that are set one after the other. -/
def fill (table : PointTable) (points : List (WireKey × PointEntry)) : PointTable :=
  points.foldl (fun table point => Function.update table point.1 (some point.2)) table

/-- Points with different keys are all in the table, besides what was there. -/
theorem fill_eq_some_iff {table : PointTable} {points : List (WireKey × PointEntry)}
    (hn : (points.map Prod.fst).Nodup) {key : WireKey} {entry : PointEntry} :
    table.fill points key = some entry ↔
      (key, entry) ∈ points ∨ key ∉ points.map Prod.fst ∧ table key = some entry := by
  induction points generalizing table with
  | nil => simp [fill]
  | cons point points ih =>
    obtain ⟨hnew, hrest⟩ := List.nodup_cons.mp hn
    have hfill : table.fill (point :: points) =
        fill (Function.update table point.1 (some point.2)) points := rfl
    have hmem : (key, entry) ∈ points → key ∈ points.map Prod.fst :=
      List.mem_map_of_mem (f := Prod.fst)
    rw [hfill, ih hrest]
    by_cases hk : key = point.1
    · subst hk
      rw [Function.update_self, Option.some.injEq]
      constructor
      · rintro (hm | ⟨-, rfl⟩)
        · exact absurd (hmem hm) hnew
        · exact .inl List.mem_cons_self
      · rintro (hm | ⟨hm, -⟩)
        · rcases List.mem_cons.mp hm with heq | hm
          · exact .inr ⟨hnew, by rw [← heq]⟩
          · exact absurd (hmem hm) hnew
        · exact absurd List.mem_cons_self hm
    · rw [Function.update_of_ne hk, List.mem_cons, List.map_cons, List.mem_cons, not_or]
      have hne : (key, entry) ≠ point := fun heq => hk (congrArg Prod.fst heq)
      constructor
      · rintro (hm | ⟨hm, ht⟩)
        · exact .inl (.inr hm)
        · exact .inr ⟨⟨hk, hm⟩, ht⟩
      · rintro ((heq | hm) | ⟨⟨-, hm⟩, ht⟩)
        · exact absurd heq hne
        · exact .inl hm
        · exact .inr ⟨hm, ht⟩

/-- To make points one after the other is to set them one after the other. -/
theorem replay_flatMap {α : Type} {requests : α → List Request}
    (point : α → WireKey × PointEntry)
    (h : ∀ a (table : PointTable), table.replay (requests a) =
      Function.update table (point a).1 (some (point a).2))
    (table : PointTable) (list : List α) :
    table.replay (list.flatMap requests) = table.fill (list.map point) := by
  induction list generalizing table with
  | nil => rfl
  | cons a list ih =>
    rw [List.flatMap_cons, replay_append, h, ih]
    rfl

/-- The requests that make all points of a registry set them one after the other. -/
theorem replay_registry (table : PointTable) (registry : Registry) :
    table.replay registry.syncRequests = table.fill registry.points := by
  have hb := replay_flatMap (fun breakpoint : Breakpoint => (breakpoint.key, breakpoint.entry))
    fun breakpoint table => table.replay_breakpoint breakpoint
  have hw := replay_flatMap (fun watchpoint : Watchpoint => (watchpoint.key, watchpoint.entry))
    fun watchpoint table => table.replay_watchpoint watchpoint
  rw [Registry.syncRequests, replay_append, hb, hw, fill, fill, ← List.foldl_append]
  rfl

end PointTable

/-- A debuggee without points that is told all points of a proper registry mirrors it. -/
theorem Mirrors.of_syncRequests {registry : Registry} (hp : registry.IsProper) :
    Mirrors (PointTable.empty.replay registry.syncRequests) registry where
  distinct := hp.nodup
  entries key entry := by
    rw [PointTable.replay_registry, PointTable.fill_eq_some_iff hp.nodup]
    exact or_iff_left fun h => nomatch h.2

end DebugLink
