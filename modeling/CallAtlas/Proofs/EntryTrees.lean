import CallAtlas.Proofs.FirstOccurrence
import CallAtlas.Proofs.ForestReach

/-!
# Every entry point heads a tree

A tree holds below its root only names that some definition calls, and an entry point is called by
none.  So no entry point has been seen before its own tree is grown, and each of those that the
limit admits gets a tree: the roots of the forest are the first entry points, in their order
(`entry_points_head_the_trees`).
-/

set_option autoImplicit false

namespace CallAtlas

open CallTree

/-- Every name below a root is called by some definition. -/
theorem isCalled_of_mem_growBelow {defs : List Definition} {below : Nat} {seen : List String}
    {d : Definition} (hd : d ∈ defs) {name : String}
    (h : name ∈ namesBelow (growBelow defs below seen d).1) : ∃ e ∈ defs, name ∈ e.calls := by
  cases below with
  | zero => simp [growBelow] at h
  | succ below =>
    obtain ⟨b, hb, hname⟩ := mem_namesBelow.mp h
    have hcalled : b.1 ∈ d.calls := mem_callees_of_mem_growBranches hb
    obtain ⟨seen', hgrown⟩ := exists_grown_of_mem_growBranches hb
    -- The name is the branch's own, or the last step of a path from there.
    rcases (reachable_of_mem_names hgrown hname).cases_tail with rfl | ⟨caller, -, hstep⟩
    · exact ⟨d, hd, hcalled⟩
    · obtain ⟨e, he, -, hcalled', -⟩ := hstep
      exact ⟨e, he.mem, hcalled'⟩

/-- Whatever stands below the root of a grown tree is called by some definition. -/
theorem isCalled_of_mem_below {defs : List Definition} {below : Nat} {seen : List String}
    {entry : String} {t : CallTree} (ht : (growTree defs below seen entry).1 = some t)
    {name : String} (h : name ∈ namesBelow t.branches) : ∃ e ∈ defs, name ∈ e.calls := by
  obtain ⟨d, hd, -, rfl⟩ := growTree_eq_some ht
  exact isCalled_of_mem_growBelow (resolve_eq_some_iff.mp hd).1.mem h

/-- The names seen when the trees of some entry points have been grown one after the other, with at
most `below` levels under each root. -/
def seenAfter (defs : List Definition) (below : Nat) (done : List String) : List String :=
  done.foldl (fun seen entry => (growTree defs below seen entry).2) []

/-- The names seen behind some branches are those that come from growing them in turn. -/
theorem growBranches_snd {growOne : List String → String → Option CallTree × List String}
    (seen callees : List String) :
    (growBranches growOne seen callees).2 =
      callees.foldl (fun seen callee => (growOne seen callee).2) seen := by
  induction callees generalizing seen with
  | nil => rfl
  | cons callee callees ih => rw [growBranches_cons, ih, List.foldl_cons]

/-- Among the names seen, an entry point cannot be there before it comes up. -/
theorem not_mem_seenAfter {defs : List Definition} {below : Nat} {done : List String}
    {entry : String} (hnew : entry ∉ done) (huncalled : ∀ d ∈ defs, entry ∉ d.calls) :
    entry ∉ seenAfter defs below done := by
  rw [seenAfter, ← growBranches_snd, growBranches_seen (growTree_seen defs below),
    List.append_nil, List.mem_reverse, mem_namesBelow]
  rintro ⟨b, hb, hentry⟩
  obtain ⟨seen, hgrown⟩ := exists_grown_of_mem_growBranches hb
  rw [names_eq, List.mem_cons] at hentry
  rcases hentry with hroot | hbelow
  · have hkey : entry = b.1 := hroot.trans (name_of_growTree hgrown)
    exact hnew (hkey ▸ mem_callees_of_mem_growBranches hb)
  · obtain ⟨d, hd, hcalled⟩ := isCalled_of_mem_below hgrown hbelow
    exact huncalled d hd hcalled

/-- If every name gets a tree when it comes up, the branches are keyed by all the names. -/
theorem growBranches_keys_eq {growOne : List String → String → Option CallTree × List String}
    {names : List String}
    (h : ∀ done name rest, names = done ++ name :: rest →
      ∃ t, (growOne (done.foldl (fun seen name => (growOne seen name).2) []) name).1 = some t) :
    (growBranches growOne [] names).1.map (·.1) = names := by
  induction names using List.reverseRecOn with
  | nil => rfl
  | append_singleton names name ih =>
    have hnames : (growBranches growOne [] names).1.map (·.1) = names := by
      refine ih fun done earlier rest hsplit => h done earlier (rest ++ [name]) ?_
      rw [hsplit, List.append_assoc, List.cons_append]
    obtain ⟨t, ht⟩ := h names name [] rfl
    rw [growBranches_append, growBranches_cons, growBranches_snd, ht, List.map_append, hnames]
    rfl

namespace CallForest

/-- An entry point is new and gets a tree when it comes up. -/
theorem entry_grows {defs : List Definition} {limits : ForestLimits} {done rest : List String}
    {entry : String} (h : (entryPoints defs).take limits.maxEntries = done ++ entry :: rest) :
    entry ∉ seenAfter defs (limits.maxDepth - 1) done ∧
      ∃ t, (growTree defs (limits.maxDepth - 1)
        (seenAfter defs (limits.maxDepth - 1) done) entry).1 = some t := by
  have hnodup : (done ++ entry :: rest).Nodup :=
    h ▸ (nodup_entryPoints defs).sublist (List.take_sublist _ _)
  have hnew : entry ∉ done := fun hmem =>
    (List.nodup_append.mp hnodup).2.2 entry hmem entry List.mem_cons_self rfl
  have hentry : entry ∈ entryPoints defs := by
    have htaken : entry ∈ (entryPoints defs).take limits.maxEntries := by
      rw [h]
      exact List.mem_append_right _ List.mem_cons_self
    exact List.mem_of_mem_take htaken
  obtain ⟨hdefined, huncalled⟩ := mem_entryPoints.mp hentry
  have hunseen : entry ∉ seenAfter defs (limits.maxDepth - 1) done :=
    not_mem_seenAfter hnew huncalled
  obtain ⟨d, hd⟩ := hdefined.exists_resolve
  exact ⟨hunseen, _, congrArg Prod.fst (growTree_of_new hd hunseen _)⟩

/-- The entry points of a grown forest are the first ones of the program, up to the cap. -/
theorem entryNames_grow (defs : List Definition) (limits : ForestLimits) :
    (grow defs limits).entryNames = (entryPoints defs).take limits.maxEntries := by
  have hkeys : (roots defs limits).map (·.1) = (entryPoints defs).take limits.maxEntries :=
    growBranches_keys_eq fun _ _ _ hsplit => (entry_grows hsplit).2
  rw [entryNames, trees_grow, List.map_map, ← hkeys]
  exact List.map_congr_left fun b hb => name_of_mem_roots hb

/-- Below the roots there is no entry point. -/
theorem not_entryPoint_of_mem_below {defs : List Definition} {limits : ForestLimits} {t : CallTree}
    (ht : t ∈ (grow defs limits).trees) {n : CallTree} (hn : n ∈ preorderBelow t.branches) :
    n.name ∉ entryPoints defs := by
  rw [trees_grow] at ht
  obtain ⟨b, hb, rfl⟩ := List.mem_map.mp ht
  obtain ⟨seen, hgrown⟩ := exists_grown_of_mem_growBranches hb
  have hname : n.name ∈ namesBelow b.2.branches := by
    rw [preorderBelow_eq, List.mem_flatMap] at hn
    obtain ⟨c, hc, hn⟩ := hn
    exact mem_namesBelow.mpr ⟨c, hc, List.mem_map_of_mem hn⟩
  obtain ⟨d, hd, hcalled⟩ := isCalled_of_mem_below hgrown hname
  exact fun hentry => (mem_entryPoints.mp hentry).2 d hd hcalled

/-- The list of the defined names that no definition calls, in the order in which the names of the
definitions first occur. -/
structure IsEntryList (defs : List Definition) (names : List String) : Prop where
  /-- No name is listed twice. -/
  nodup : names.Nodup
  /-- The names come in the order of their first occurrences. -/
  ordered : names.Pairwise fun a b => (defs.map (·.name)).idxOf a < (defs.map (·.name)).idxOf b
  /-- Exactly the defined names are listed that are in no definition's calls. -/
  mem_iff : ∀ name, name ∈ names ↔ IsDefined defs name ∧ ∀ d ∈ defs, name ∉ d.calls

/-- **The roots of the grown forest are the first entry points, in their order.**  When an entry
point comes up it has not been seen and gets a tree, and no entry point stands below a root. -/
theorem entry_points_head_the_trees (defs : List Definition) (limits : ForestLimits) :
    (grow defs limits).entryNames = (entryPoints defs).take limits.maxEntries ∧
      (∀ done entry rest, (entryPoints defs).take limits.maxEntries = done ++ entry :: rest →
        entry ∉ seenAfter defs (limits.maxDepth - 1) done ∧
          ∃ t, (growTree defs (limits.maxDepth - 1)
            (seenAfter defs (limits.maxDepth - 1) done) entry).1 = some t) ∧
      (∀ t ∈ (grow defs limits).trees, ∀ n ∈ preorderBelow t.branches,
        n.name ∉ entryPoints defs) ∧
      IsEntryList defs (entryPoints defs) :=
  ⟨entryNames_grow defs limits, fun _ _ _ hsplit => entry_grows hsplit,
    fun _ ht _ hn => not_entryPoint_of_mem_below ht hn,
    ⟨nodup_entryPoints defs, pairwise_entryPoints defs, fun _ => mem_entryPoints⟩⟩

end CallForest

end CallAtlas
