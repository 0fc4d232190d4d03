import SymbolSearch.Proofs.Cache.Queue

/-!
# The cache is invisible

Whoever asks a cache for the index of a project gets the index that would be built of the project,
whatever was asked before: other contents under the same id, the same content under other ids, or
the same project again after its slot was given up. Nor does it matter that callers have gone away
while an index was built for them, which leaves an empty slot behind.
-/

namespace SymbolSearch

variable {hashed : Set Bytes}

/-- A request that nobody cancels is answered with the index of the project, and no other index is
ever got for it. -/
def AnswersAsBuilt (hashed : Set Bytes) (answer : CacheCall → CacheAnswer) : Prop :=
  ∀ project : Project, project.IsHashed hashed →
    (∀ token : Token, token.cancelled = false →
      ∃ held, answer (.request project token) = .ok (some held)
        ∧ held.index = SymbolIndex.build project)
    ∧ ∀ held, answer (.get project) = .ok (some held) → held.index = SymbolIndex.build project

theorem IndexCache.Reachable.use {cache : IndexCache} (reachable : cache.Reachable hashed)
    (files : FileTree) {project : Project} (hproject : project.IsHashed hashed) :
    (cache.use files project).cache.Reachable hashed :=
  have hrequest : cache.getOrBuild files project ⟨false⟩ = .ok (cache.use files project) := rfl
  .request reachable hproject hrequest

theorem IndexCache.Sound.answersAsBuilt {cache : IndexCache} (sound : cache.Sound hashed)
    (free : CollisionFree hashed) (files : FileTree) :
    AnswersAsBuilt hashed fun call => (cache.answer files call).1 := by
  intro project hproject
  refine ⟨fun token htoken => ?_, fun held hget => ?_⟩
  · refine ⟨(cache.use files project).held, ?_, (sound.use free files hproject).1⟩
    simp only [answer_request_of_live project htoken]
  · cases hlookup : cache.lookup? project.cacheKey with
    | some other =>
      simp only [answer_get_of_held hlookup] at hget
      cases hget
      exact sound.slots _ (mem_slots_of_lookup? hlookup) project hproject rfl
    | none =>
      simp only [answer_get_of_absent hlookup] at hget
      cases hget

/-! ### The map and the queue -/

namespace QueuedCache

/-- A request whose caller goes away while the index is built. The slot stays, and nothing is put
into it; the index may have been counted all the same. -/
def abandon (cache : QueuedCache) (project : Project) (counted : Bool) : QueuedCache :=
  let after := (cache.slot project.cacheKey).2
  { after with builds := if counted then after.builds + 1 else after.builds }

/-- The states of a cache that was asked for indexes of hashed projects. -/
inductive Reachable (hashed : Set Bytes) : QueuedCache → Prop
  | empty (capacity : Nat) : Reachable hashed (empty capacity)
  | clear {cache : QueuedCache} : Reachable hashed cache → Reachable hashed cache.clear
  | get {cache : QueuedCache} (project : Project) :
    Reachable hashed cache → Reachable hashed (cache.answer (.get project)).2
  | request {cache : QueuedCache} {project : Project} (token : Token) :
    Reachable hashed cache → project.IsHashed hashed →
    Reachable hashed (cache.answer (.request project token)).2
  | abandon {cache : QueuedCache} (project : Project) (counted : Bool) :
    Reachable hashed cache → Reachable hashed (cache.abandon project counted)

/-- Every index in the map is that of each hashed project with the key of its slot. -/
def HoldsBuilt (hashed : Set Bytes) (slots : SlotMap) : Prop :=
  ∀ key held, slots.lookup key = some (some held) → ∀ project : Project,
    project.IsHashed hashed → project.cacheKey = key → held.index = SymbolIndex.build project

theorem lookup_of_lookup_evict {capacity : Nat} {slots : SlotMap} {order : List CacheKey}
    {key : CacheKey} {content : Option HeldIndex}
    (h : (evict capacity slots order).1.lookup key = some content) :
    slots.lookup key = some content := by
  induction order generalizing slots with
  | nil => exact h
  | cons first rest ih =>
    rw [evict] at h
    split at h
    · have hrest := ih h
      by_cases hfirst : key = first
      · subst hfirst
        simp at hrest
      · rwa [AList.lookup_erase_ne hfirst] at hrest
    · exact h

namespace HoldsBuilt

variable {cache : QueuedCache}

/-- To make a slot puts no index into the map, and an index that is found in a slot was there. -/
theorem slot (holds : HoldsBuilt hashed cache.slots) (key : CacheKey) :
    HoldsBuilt hashed (cache.slot key).2.slots
      ∧ ∀ held, (cache.slot key).1 = some held → cache.slots.lookup key = some (some held) := by
  rw [QueuedCache.slot]
  cases hlookup : cache.slots.lookup key with
  | some content => exact ⟨holds, fun held h => by rw [← h]⟩
  | none =>
    refine ⟨fun other held h => ?_, fun held h => by cases h⟩
    have hinserted := lookup_of_lookup_evict h
    by_cases hother : other = key
    · subst hother
      simp at hinserted
    · rw [AList.lookup_insert_ne hother] at hinserted
      exact holds other held hinserted

/-- An index may be put into the slot of the project that it was built of. -/
theorem fill (free : CollisionFree hashed) (holds : HoldsBuilt hashed cache.slots)
    {project : Project} (hproject : project.IsHashed hashed) {held : HeldIndex}
    (hheld : held.index = SymbolIndex.build project) :
    HoldsBuilt hashed (cache.fill project.cacheKey held).slots := by
  rw [QueuedCache.fill]
  split
  · intro key other h target htarget hkey
    by_cases hsame : key = project.cacheKey
    · subst hsame
      rw [AList.lookup_insert] at h
      cases h
      rw [hheld]
      have hfingerprint := congrArg CacheKey.fingerprint hkey
      exact SymbolIndex.build_eq_of_fingerprint_eq free hproject htarget hfingerprint.symm
    · rw [AList.lookup_insert_ne hsame] at h
      exact holds key other h target htarget hkey
  · exact holds

theorem use (free : CollisionFree hashed) (holds : HoldsBuilt hashed cache.slots)
    {project : Project} (hproject : project.IsHashed hashed) :
    (cache.use project).1.index = SymbolIndex.build project
      ∧ HoldsBuilt hashed (cache.use project).2.slots := by
  obtain ⟨hslot, hfound⟩ := holds.slot project.cacheKey
  rw [QueuedCache.use]
  revert hslot hfound
  cases cache.slot project.cacheKey with
  | mk content after =>
    intro hslot hfound
    cases content with
    | some held => exact ⟨holds _ _ (hfound held rfl) project hproject rfl, hslot⟩
    | none => exact ⟨rfl, fill free hslot hproject rfl⟩

end HoldsBuilt

theorem Reachable.holdsBuilt (free : CollisionFree hashed) {cache : QueuedCache}
    (reachable : cache.Reachable hashed) : HoldsBuilt hashed cache.slots := by
  induction reachable with
  | empty capacity => exact fun key held h => by cases h
  | clear _ ih => exact fun key held h => by cases h
  | @get cache project _ ih =>
    rw [answer]
    split
    · exact ih
    · exact ih
  | @request cache project token _ hproject ih =>
    rw [answer]
    split
    · exact ih
    · exact (ih.use free hproject).2
  | abandon project counted _ ih => exact (ih.slot project.cacheKey).1

theorem HoldsBuilt.answersAsBuilt (free : CollisionFree hashed) {cache : QueuedCache}
    (holds : HoldsBuilt hashed cache.slots) :
    AnswersAsBuilt hashed fun call => (cache.answer call).1 := by
  intro project hproject
  refine ⟨fun token htoken => ?_, fun held hget => ?_⟩
  · refine ⟨(cache.use project).1, ?_, (holds.use free hproject).1⟩
    simp only [answer, htoken, Bool.false_eq_true, if_false]
  · simp only [answer] at hget
    split at hget
    · rename_i other hlookup
      cases hget
      exact holds _ _ hlookup project hproject rfl
    · cases hget

end QueuedCache

/-- As long as fingerprints tell contents apart, a cache without a store answers in any state that it
can get into as if every index were built anew. This holds whether its slots stand in a list or in a
map with a queue beside it, and there also after requests that were abandoned. -/
theorem cache_answers_as_built (free : CollisionFree hashed) :
    (∀ cache : IndexCache, cache.Reachable hashed → ∀ files : FileTree,
      AnswersAsBuilt hashed fun call => (cache.answer files call).1)
    ∧ ∀ cache : QueuedCache, cache.Reachable hashed →
      AnswersAsBuilt hashed fun call => (cache.answer call).1 := by
  refine ⟨fun cache reachable files => ?_, fun cache reachable => ?_⟩
  · exact (reachable.sound free).answersAsBuilt free files
  · exact (reachable.holdsBuilt free).answersAsBuilt free

/-- Two contents of one project, of which the cache has room for one, and the first again under another
id. The second cache has been left by a caller before it had an index for the slot. -/
theorem cache_answers_as_built_of_snapshots :
    let a : Project := { info := ⟨⟨1⟩, "P", "P", "C#",
      [⟨⟨1⟩, "p.cs", [Declaration.ofName .classDecl "A"]⟩], [], []⟩ }
    let b : Project := { info := ⟨⟨1⟩, "P", "P", "C#",
      [⟨⟨1⟩, "p.cs", [Declaration.ofName .classDecl "B"]⟩], [], []⟩ }
    let other : Project := { info := ⟨⟨2⟩, "Q", "Q", "C#", a.info.documents, [], []⟩ }
    let hashed : Set Bytes := {a.info.content, b.info.content}
    let files : FileTree := ⟨[], []⟩
    let first := ((IndexCache.empty 1 none).use files a).cache
    let second := (first.use files b).cache
    let third := (second.use files other).cache
    let left := (QueuedCache.empty 1).abandon a true
    (CollisionFree hashed ∧ third.Reachable hashed ∧ left.Reachable hashed)
      ∧ (∃ held, (third.answer files (.request a ⟨false⟩)).1 = .ok (some held)
        ∧ held.index = SymbolIndex.build a)
      ∧ ∃ held, (left.answer (.request a ⟨false⟩)).1 = .ok (some held)
        ∧ held.index = SymbolIndex.build a := by
  intro a b other hashed files first second third left
  have hfirst : (Fingerprint.ofContent a.info.content).bytes[0]
      ≠ (Fingerprint.ofContent b.info.content).bytes[0] := by decide +kernel
  have hlengths : a.info.content.length < Bytes.limit 8 ∧ b.info.content.length < Bytes.limit 8 := by
    decide +kernel
  have free : CollisionFree hashed := .pair hlengths.1 hlengths.2 hfirst
  have ha : a.IsHashed hashed := .inl rfl
  have hb : b.IsHashed hashed := .inr rfl
  have hother : other.IsHashed hashed := .inl rfl
  have reachable : third.Reachable hashed :=
    (((IndexCache.Reachable.empty 1).use files ha).use files hb).use files hother
  have hleft : left.Reachable hashed := .abandon a true (.empty 1)
  obtain ⟨hlist, hmap⟩ := cache_answers_as_built free
  refine ⟨⟨free, reachable, hleft⟩, ?_, ?_⟩
  · exact (hlist _ reachable files a ha).1 ⟨false⟩ rfl
  · exact (hmap _ hleft a ha).1 ⟨false⟩ rfl

end SymbolSearch
