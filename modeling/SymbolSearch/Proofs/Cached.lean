import Mathlib.Data.Set.Function
import SymbolSearch.Index.Cache
import SymbolSearch.Proofs.Content

/-!
# Cached indexes

As long as no two contents have the same fingerprint, a cache without a store holds for every
project nothing but the index that would be built of it. This is so after any sequence of requests,
whatever the capacity.
-/

namespace SymbolSearch

/-- No two of the byte strings have the same fingerprint. Their lengths fit into eight bytes, as
those of all byte strings in memory do. -/
structure CollisionFree (hashed : Set Bytes) : Prop where
  injOn : Set.InjOn Fingerprint.ofContent hashed
  length_lt : ∀ content ∈ hashed, content.length < Bytes.limit 8

/-- Two contents whose fingerprints begin differently do not collide. -/
theorem CollisionFree.pair {a b : Bytes} (ha : a.length < Bytes.limit 8)
    (hb : b.length < Bytes.limit 8)
    (h : (Fingerprint.ofContent a).bytes[0] ≠ (Fingerprint.ofContent b).bytes[0]) :
    CollisionFree {a, b} := by
  constructor
  · rintro _ (rfl | rfl) _ (rfl | rfl) hsame
    · rfl
    · rw [hsame] at h
      exact absurd rfl h
    · rw [hsame] at h
      exact absurd rfl h
    · rfl
  · rintro content (rfl | rfl)
    · exact ha
    · exact hb

def Project.IsHashed (hashed : Set Bytes) (project : Project) : Prop :=
  project.info.content ∈ hashed

structure Solution.IsHashed (hashed : Set Bytes) (solution : Solution) : Prop where
  content : solution.content ∈ hashed
  projects : ∀ project ∈ solution.projects, project.IsHashed hashed

/-- The contents that are hashed for a solution of one project. -/
theorem Solution.isHashed_singleton (project : Project) :
    Solution.IsHashed {project.info.content, content ⟨[project]⟩} ⟨[project]⟩ where
  content := .inr rfl
  projects := by
    intro other hother
    obtain rfl := List.mem_singleton.1 hother
    exact .inl rfl

variable {hashed : Set Bytes}

/-- Nothing but the content goes into an index. -/
theorem SymbolIndex.build_eq_of_content_eq {a b : Project}
    (hlength : a.info.content.length < Bytes.limit 8) (h : a.info.content = b.info.content) :
    build a = build b := by
  have hfingerprint : a.fingerprint = b.fingerprint := by
    rw [a.fingerprint_eq, b.fingerprint_eq, h]
  have hforest := Project.symbolForest_eq_of_content_eq hlength h
  rw [build, build]
  simp only [hfingerprint, hforest]

/-- Projects of the same fingerprint have the same index. -/
theorem SymbolIndex.build_eq_of_fingerprint_eq (free : CollisionFree hashed) {a b : Project}
    (ha : a.IsHashed hashed) (hb : b.IsHashed hashed) (h : a.fingerprint = b.fingerprint) :
    build a = build b := by
  refine build_eq_of_content_eq (free.length_lt _ ha) (free.injOn ha hb ?_)
  rw [← a.fingerprint_eq, ← b.fingerprint_eq, h]

namespace IndexCache

/-! ### Requests -/

theorem use_of_held {cache : IndexCache} {project : Project} {held : HeldIndex}
    (h : cache.lookup? project.cacheKey = some held) (files : FileTree) :
    cache.use files project = ⟨held, cache.touch project.cacheKey held, files, []⟩ := by
  simp only [use, h]

/-- What a cache without a store adds for a project whose index is not held. -/
def built (cache : IndexCache) (project : Project) : HeldIndex :=
  ⟨.build project, cache.builds + cache.loads⟩

theorem use_of_absent {cache : IndexCache} (hdirectory : cache.directory = none)
    {project : Project} (h : cache.lookup? project.cacheKey = none) (files : FileTree) :
    (cache.use files project).held = cache.built project
      ∧ (cache.use files project).cache
        = { cache.insert project.cacheKey (cache.built project) with
            builds := cache.builds + 1 } := by
  have hobtained : obtain cache.directory files project
      = ⟨.build project, false, files, [buildEvent project (.build project)]⟩ := by
    rw [hdirectory]
    rfl
  simp only [use, h, hobtained]
  exact ⟨rfl, rfl⟩

/-! ### What is held -/

/-- The states of a cache without a store, all of whose indexes were asked for hashed projects. -/
inductive Reachable (hashed : Set Bytes) : IndexCache → Prop
  | empty (capacity : Nat) : Reachable hashed (empty capacity none)
  | clear {cache : IndexCache} : Reachable hashed cache → Reachable hashed cache.clear
  | get {cache : IndexCache} (project : Project) :
    Reachable hashed cache → Reachable hashed (cache.get? project).2
  | request {cache : IndexCache} {files : FileTree} {project : Project} {token : Token}
    {request : Request} : Reachable hashed cache → project.IsHashed hashed →
    cache.getOrBuild files project token = .ok request → Reachable hashed request.cache

/-- The cache has no store, and what it holds for a project is the index of the project. -/
structure Sound (hashed : Set Bytes) (cache : IndexCache) : Prop where
  directory : cache.directory = none
  slots : ∀ slot ∈ cache.slots, ∀ project : Project, project.IsHashed hashed →
    project.cacheKey = slot.1 → slot.2.index = SymbolIndex.build project

theorem mem_slots_of_lookup? {cache : IndexCache} {key : CacheKey} {held : HeldIndex}
    (h : cache.lookup? key = some held) : (key, held) ∈ cache.slots := by
  obtain ⟨before, after, hslots, -⟩ := List.lookup_eq_some_iff.1 h
  rw [hslots]
  exact List.mem_append_right _ List.mem_cons_self

namespace Sound

variable {cache : IndexCache}

theorem touch (sound : cache.Sound hashed) {key : CacheKey} {held : HeldIndex}
    (h : cache.lookup? key = some held) : (cache.touch key held).Sound hashed where
  directory := sound.directory
  slots := by
    intro slot hslot
    rcases List.mem_append.1 hslot with hslot | hslot
    · exact sound.slots slot (List.mem_filter.1 hslot).1
    · obtain rfl := List.mem_singleton.1 hslot
      exact sound.slots _ (mem_slots_of_lookup? h)

/-- A request gives the index of the project and leaves the cache sound. -/
theorem use (free : CollisionFree hashed) (sound : cache.Sound hashed) (files : FileTree)
    {project : Project} (hproject : project.IsHashed hashed) :
    (cache.use files project).held.index = SymbolIndex.build project
      ∧ (cache.use files project).cache.Sound hashed := by
  cases hlookup : cache.lookup? project.cacheKey with
  | some held =>
    rw [use_of_held hlookup]
    exact ⟨sound.slots _ (mem_slots_of_lookup? hlookup) project hproject rfl, sound.touch hlookup⟩
  | none =>
    obtain ⟨hheld, hcache⟩ := use_of_absent sound.directory hlookup files
    rw [hheld, hcache]
    refine ⟨rfl, sound.directory, fun slot hslot other hother hkey => ?_⟩
    rcases List.mem_append.1 hslot with hslot | hslot
    · exact sound.slots slot (List.mem_of_mem_drop hslot) other hother hkey
    · obtain rfl := List.mem_singleton.1 hslot
      have hfingerprint := congrArg CacheKey.fingerprint hkey
      exact SymbolIndex.build_eq_of_fingerprint_eq free hproject hother hfingerprint.symm

end Sound

theorem Reachable.sound (free : CollisionFree hashed) {cache : IndexCache}
    (reachable : cache.Reachable hashed) : cache.Sound hashed := by
  induction reachable with
  | empty capacity => exact ⟨rfl, fun slot hslot => by cases hslot⟩
  | clear _ ih => exact ⟨ih.directory, fun slot hslot => by cases hslot⟩
  | @get cache project _ ih =>
    rw [get?]
    split
    · exact ih.touch (by assumption)
    · exact ih
  | @request cache files project token request _ hproject hrequest ih =>
    rw [getOrBuild] at hrequest
    split at hrequest
    · cases hrequest
    · cases hrequest
      exact (ih.use free files hproject).2

end IndexCache

end SymbolSearch
