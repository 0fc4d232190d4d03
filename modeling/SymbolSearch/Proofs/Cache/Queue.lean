import Mathlib.Data.List.AList
import SymbolSearch.Proofs.Cache.History

/-!
# The cache as a map and a queue

The slots of a cache can also be kept in a map, with the keys in a queue beside it. A slot is put
into the map before its index is built, and the keys at the front of the queue are given up one by
one until the map is small enough. Such a cache answers all calls as the one does whose slots stand
in a list, and at any time its queue is that list.
-/

namespace SymbolSearch

/-- The slots by their keys; a slot is empty until its index is built. -/
abbrev SlotMap := AList fun _ : CacheKey => Option HeldIndex

structure QueuedCache where
  capacity : Nat
  slots : SlotMap
  order : List CacheKey
  builds : Nat

namespace QueuedCache

def empty (capacity : Nat) : QueuedCache := ⟨max capacity 1, ∅, [], 0⟩

def clear (cache : QueuedCache) : QueuedCache := { cache with slots := ∅, order := [] }

def touch (cache : QueuedCache) (key : CacheKey) : QueuedCache :=
  { cache with order := cache.order.erase key ++ [key] }

/-- Gives up the slots at the front of the queue as long as there are too many. -/
def evict (capacity : Nat) : SlotMap → List CacheKey → SlotMap × List CacheKey
  | slots, [] => (slots, [])
  | slots, key :: rest =>
    if capacity < slots.entries.length then evict capacity (slots.erase key) rest
    else (slots, key :: rest)

/-- What is in the slot of a key, for which an empty one is made if there is none. -/
def slot (cache : QueuedCache) (key : CacheKey) : Option HeldIndex × QueuedCache :=
  match cache.slots.lookup key with
  | some content => (content, cache.touch key)
  | none =>
    let (slots, order) := evict cache.capacity (cache.slots.insert key none) (cache.order ++ [key])
    (none, { cache with slots := slots, order := order })

def fill (cache : QueuedCache) (key : CacheKey) (held : HeldIndex) : QueuedCache :=
  if key ∈ cache.slots then { cache with slots := cache.slots.insert key (some held) } else cache

def use (cache : QueuedCache) (project : Project) : HeldIndex × QueuedCache :=
  match cache.slot project.cacheKey with
  | (some held, cache) => (held, cache)
  | (none, cache) =>
    let held : HeldIndex := ⟨.build project, cache.builds⟩
    (held, { cache.fill project.cacheKey held with builds := cache.builds + 1 })

def answer (cache : QueuedCache) : CacheCall → CacheAnswer × QueuedCache
  | .request project token =>
    if token.cancelled then (.error .cancelled, cache)
    else (.ok (some (cache.use project).1), (cache.use project).2)
  | .get project =>
    match cache.slots.lookup project.cacheKey with
    | some (some held) => (.ok (some held), cache.touch project.cacheKey)
    | _ => (.ok none, cache)
  | .clear => (.ok none, cache.clear)

def machine (capacity : Nat) : CacheMachine QueuedCache := ⟨empty capacity, answer, order, builds⟩

end QueuedCache

/-! ### Slots that stand in a list -/

namespace IndexCache

variable {cache : IndexCache}

theorem lookup_singleton_ne {key other : CacheKey} (hne : other ≠ key) (held : HeldIndex) :
    [(key, held)].lookup other = none := by
  rw [List.lookup_cons, beq_eq_false_iff_ne.2 hne]
  rfl

theorem lookup?_touch {key : CacheKey} {held : HeldIndex} (h : cache.lookup? key = some held)
    (other : CacheKey) : (cache.touch key held).lookup? other = cache.lookup? other := by
  rw [lookup?, touch, List.lookup_append]
  by_cases hother : other = key
  · subst hother
    have habsent : (cache.slots.filter (·.1 != other)).lookup other = none := by
      rw [List.lookup_eq_none_iff]
      rintro slot hslot
      exact bne_comm.trans (List.mem_filter.1 hslot).2
    rw [habsent, h]
    simp
  · rw [Distinct.lookup_filter_ne hother, lookup_singleton_ne hother, Option.or_none, lookup?]

/-- The slots that stay are those whose keys do. -/
theorem lookup_drop (hnodup : cache.heldKeys.Nodup) (n : Nat) (key : CacheKey) :
    (cache.slots.drop n).lookup key
      = if key ∈ cache.heldKeys.drop n then cache.lookup? key else none := by
  split
  case isTrue hmem =>
    have habsent : (cache.slots.take n).lookup key = none := by
      rw [List.lookup_eq_none_iff]
      rintro slot hslot
      refine bne_iff_ne.2 fun hkey => ?_
      have htake : key ∈ cache.heldKeys.take n := by
        rw [heldKeys, ← List.map_take, hkey]
        exact List.mem_map_of_mem hslot
      exact List.disjoint_take_drop hnodup (Nat.le_refl n) htake hmem
    rw [lookup?, ← List.take_append_drop n cache.slots, List.lookup_append, habsent,
      Option.none_or, List.take_append_drop]
  case isFalse hmem =>
    rw [List.lookup_eq_none_iff]
    rintro slot hslot
    refine bne_iff_ne.2 fun hkey => hmem ?_
    rw [heldKeys, ← List.map_drop, hkey]
    exact List.mem_map_of_mem hslot

theorem lookup?_insert (hnodup : cache.heldKeys.Nodup) {key : CacheKey} (held : HeldIndex)
    (habsent : cache.lookup? key = none) (other : CacheKey) :
    (cache.insert key held).lookup? other
      = if other = key then some held
        else if other ∈ cache.heldKeys.drop cache.excess then cache.lookup? other else none := by
  rw [lookup?, insert, List.lookup_append, lookup_drop hnodup]
  by_cases hother : other = key
  · subst hother
    simp [habsent]
  · rw [lookup_singleton_ne hother, Option.or_none, if_neg hother]

end IndexCache

namespace QueuedCache

/-- A cache with a map and a queue, and the one whose slots stand in the order of the queue. -/
structure Represents (queued : QueuedCache) (cache : IndexCache) : Prop where
  capacity : queued.capacity = cache.capacity
  order : queued.order = cache.heldKeys
  slots : ∀ key, queued.slots.lookup key = (cache.lookup? key).map some
  builds : queued.builds = cache.builds

/-! ### Eviction -/

theorem length_entries_eq {slots : SlotMap} {order : List CacheKey}
    (hkeys : slots.keys.Perm order) : slots.entries.length = order.length := by
  rw [← hkeys.length_eq, AList.keys, List.keys, List.length_map]

theorem lookup_eq_ite_mem {slots : SlotMap} {order : List CacheKey} (hkeys : slots.keys.Perm order)
    (key : CacheKey) : slots.lookup key = if key ∈ order then slots.lookup key else none := by
  split
  case isTrue => rfl
  case isFalse hmem => rwa [AList.lookup_eq_none, AList.mem_keys, hkeys.mem_iff]

/-- As many slots are given up as there are too many, from the front of the queue. -/
theorem evict_eq (capacity : Nat) {slots : SlotMap} {order : List CacheKey}
    (hkeys : slots.keys.Perm order) :
    (evict capacity slots order).2 = order.drop (order.length - capacity)
      ∧ ∀ key, (evict capacity slots order).1.lookup key
        = if key ∈ order.drop (order.length - capacity) then slots.lookup key else none := by
  induction order generalizing slots with
  | nil =>
    rw [List.drop_nil]
    exact ⟨rfl, lookup_eq_ite_mem hkeys⟩
  | cons first rest ih =>
    have hlength := length_entries_eq hkeys
    rw [evict]
    split
    case isTrue hmany =>
      have hrest : (slots.erase first).keys.Perm rest := by
        simpa only [AList.keys_erase, List.erase_cons_head] using hkeys.erase first
      have hdrop : (first :: rest).drop ((first :: rest).length - capacity)
          = rest.drop (rest.length - capacity) := by
        rw [hlength, List.length_cons] at hmany
        rw [List.length_cons, Nat.succ_sub (Nat.le_of_lt_succ hmany), List.drop_succ_cons]
      have hfirst : first ∉ rest := (List.nodup_cons.1 (hkeys.nodup_iff.1 slots.nodupKeys)).1
      obtain ⟨horder, hslots⟩ := ih hrest
      rw [hdrop]
      refine ⟨horder, fun key => (hslots key).trans ?_⟩
      split
      case isTrue hkey =>
        have hne : key ≠ first := by
          rintro rfl
          exact hfirst (List.mem_of_mem_drop hkey)
        exact AList.lookup_erase_ne hne
      case isFalse => rfl
    case isFalse hfew =>
      have hnone : (first :: rest).length - capacity = 0 := by omega
      rw [hnone]
      exact ⟨rfl, lookup_eq_ite_mem hkeys⟩

namespace Represents

variable {queued : QueuedCache} {cache : IndexCache}

theorem lookup_of_held (represents : queued.Represents cache) {key : CacheKey} {held : HeldIndex}
    (h : cache.lookup? key = some held) : queued.slots.lookup key = some (some held) := by
  rw [represents.slots, h, Option.map_some]

theorem lookup_of_absent (represents : queued.Represents cache) {key : CacheKey}
    (h : cache.lookup? key = none) : queued.slots.lookup key = none := by
  rw [represents.slots, h, Option.map_none]

theorem mem_slots_iff (represents : queued.Represents cache) {key : CacheKey} :
    key ∈ queued.slots ↔ key ∈ cache.heldKeys := by
  rw [← not_iff_not, ← AList.lookup_eq_none, represents.slots, Option.map_eq_none_iff,
    IndexCache.lookup?_eq_none_iff]

theorem keys_perm (represents : queued.Represents cache) (hnodup : cache.heldKeys.Nodup) :
    queued.slots.keys.Perm queued.order := by
  refine (List.perm_ext_iff_of_nodup queued.slots.keys_nodup (represents.order ▸ hnodup)).2 ?_
  intro key
  rw [← AList.mem_keys, represents.mem_slots_iff, represents.order]

theorem clear (represents : queued.Represents cache) : queued.clear.Represents cache.clear where
  capacity := represents.capacity
  order := rfl
  slots := fun _ => rfl
  builds := represents.builds

theorem touch (represents : queued.Represents cache) (hnodup : cache.heldKeys.Nodup)
    {key : CacheKey} {held : HeldIndex} (h : cache.lookup? key = some held) :
    (queued.touch key).Represents (cache.touch key held) where
  capacity := represents.capacity
  order := by
    rw [QueuedCache.touch, IndexCache.heldKeys_touch, represents.order,
      hnodup.erase_eq_filter]
  slots := by
    intro other
    rw [IndexCache.lookup?_touch h]
    exact represents.slots other
  builds := represents.builds

/-- The slots and the queue after a slot was made. -/
theorem slot_of_absent (represents : queued.Represents cache) (hnodup : cache.heldKeys.Nodup)
    (hcapacity : 0 < cache.capacity) {key : CacheKey} (habsent : cache.lookup? key = none) :
    ∃ slots : SlotMap,
      queued.slot key
        = (none, { queued with slots, order := cache.heldKeys.drop cache.excess ++ [key] })
      ∧ ∀ other, slots.lookup other
        = if other = key then some none
          else if other ∈ cache.heldKeys.drop cache.excess then queued.slots.lookup other
          else none := by
  have hslot := represents.lookup_of_absent habsent
  have hkey : key ∉ queued.slots.keys := mt AList.mem_keys.2 (AList.lookup_eq_none.1 hslot)
  have hkeys : (queued.slots.insert key none).keys.Perm (cache.heldKeys ++ [key]) := by
    rw [AList.keys_insert, List.erase_of_not_mem hkey, ← represents.order]
    exact ((represents.keys_perm hnodup).cons key).trans (List.perm_append_singleton _ _).symm
  have hexcess : (cache.heldKeys ++ [key]).length - cache.capacity = cache.excess := by
    rw [List.length_append, IndexCache.heldKeys, List.length_map, IndexCache.excess]
    rfl
  have hle : cache.excess ≤ cache.heldKeys.length := by
    rw [IndexCache.excess, IndexCache.heldKeys, List.length_map]
    omega
  have hevict := evict_eq cache.capacity hkeys
  rw [hexcess, List.drop_append_of_le_length hle] at hevict
  obtain ⟨horder, hslots⟩ := hevict
  refine ⟨(evict cache.capacity (queued.slots.insert key none) (cache.heldKeys ++ [key])).1, ?_, ?_⟩
  · simp only [slot, hslot, represents.capacity, represents.order, horder]
  · intro other
    simp only [hslots other, List.mem_append, List.mem_singleton]
    by_cases hother : other = key
    · subst hother
      rw [if_pos (Or.inr rfl), if_pos rfl, AList.lookup_insert]
    · simp only [AList.lookup_insert_ne hother, hother, or_false, if_false]

/-- A slot that is made and filled with an index that is built. -/
theorem use_of_absent (represents : queued.Represents cache) (hloads : cache.loads = 0)
    (hnodup : cache.heldKeys.Nodup) (hcapacity : 0 < cache.capacity) {project : Project}
    (habsent : cache.lookup? project.cacheKey = none) :
    (queued.use project).1 = cache.built project
      ∧ (queued.use project).2.Represents
        { cache.insert project.cacheKey (cache.built project) with
          builds := cache.builds + 1 } := by
  obtain ⟨slots, hslot, hlookup⟩ := represents.slot_of_absent hnodup hcapacity habsent
  have hbuilt : cache.built project = ⟨.build project, queued.builds⟩ := by
    rw [IndexCache.built, hloads, represents.builds]
    rfl
  have hmem : project.cacheKey ∈ slots := by
    rw [← AList.lookup_isSome, hlookup, if_pos rfl]
    rfl
  simp only [use, hslot, fill, hmem, if_true]
  refine ⟨hbuilt.symm, represents.capacity, ?_, ?_, ?_⟩
  · exact (IndexCache.heldKeys_insert _ _).symm
  · intro other
    change (slots.insert project.cacheKey _).lookup other
      = ((cache.insert _ _).lookup? other).map some
    rw [IndexCache.lookup?_insert hnodup _ habsent, hbuilt]
    by_cases hother : other = project.cacheKey
    · subst hother
      rw [AList.lookup_insert, if_pos rfl, Option.map_some]
    · rw [AList.lookup_insert_ne hother, hlookup, if_neg hother, if_neg hother, represents.slots]
      split <;> rfl
  · exact congrArg (· + 1) represents.builds

theorem use_of_held (represents : queued.Represents cache) (hnodup : cache.heldKeys.Nodup)
    {project : Project} {held : HeldIndex} (h : cache.lookup? project.cacheKey = some held) :
    (queued.use project).1 = held
      ∧ (queued.use project).2.Represents (cache.touch project.cacheKey held) := by
  simp only [use, slot, represents.lookup_of_held h]
  exact ⟨trivial, represents.touch hnodup h⟩

/-- Both caches give the same answer to a call. -/
theorem answer (represents : queued.Represents cache) {capacity : Nat} (hcapacity : 0 < capacity)
    {log : List AnsweredCall} (remembers : cache.Remembers capacity log) (files : FileTree)
    (call : CacheCall) :
    (queued.answer call).1 = (cache.answer files call).1
      ∧ (queued.answer call).2.Represents (cache.answer files call).2 := by
  have hnodup := remembers.nodup
  cases call with
  | request project token =>
    cases htoken : token.cancelled with
    | true =>
      rw [IndexCache.answer_request_of_cancelled project htoken]
      simp only [QueuedCache.answer, htoken, if_true]
      exact ⟨trivial, represents⟩
    | false =>
      rw [IndexCache.answer_request_of_live project htoken]
      simp only [QueuedCache.answer, htoken, Bool.false_eq_true, if_false]
      cases hlookup : cache.lookup? project.cacheKey with
      | some held =>
        obtain ⟨hheld, hqueued⟩ := represents.use_of_held hnodup hlookup
        rw [IndexCache.use_of_held hlookup, hheld]
        exact ⟨rfl, hqueued⟩
      | none =>
        obtain ⟨hheld, hqueued⟩ := represents.use_of_absent remembers.loads hnodup
          (remembers.capacity_eq ▸ hcapacity) hlookup
        obtain ⟨hbuilt, hcache⟩ := IndexCache.use_of_absent remembers.directory hlookup files
        rw [hbuilt, hcache, hheld]
        exact ⟨rfl, hqueued⟩
  | get project =>
    cases hlookup : cache.lookup? project.cacheKey with
    | some held =>
      rw [IndexCache.answer_get_of_held hlookup]
      simp only [QueuedCache.answer, represents.lookup_of_held hlookup]
      exact ⟨trivial, represents.touch hnodup hlookup⟩
    | none =>
      rw [IndexCache.answer_get_of_absent hlookup]
      simp only [QueuedCache.answer, represents.lookup_of_absent hlookup]
      exact ⟨trivial, represents⟩
  | clear => exact ⟨rfl, represents.clear⟩

end Represents

/-! ### Runs -/

/-- All calls are answered alike, and at any time the queue is the list of the keys held. -/
theorem represents_run (capacity : Nat) (files : FileTree) (calls : List CacheCall) :
    ((machine capacity).run calls).log = ((IndexCache.machine capacity files).run calls).log
      ∧ ((machine capacity).run calls).state.Represents
        ((IndexCache.machine capacity files).run calls).state := by
  induction calls using List.reverseRecOn with
  | nil => exact ⟨rfl, rfl, rfl, fun _ => rfl, rfl⟩
  | append_singleton calls call ih =>
    obtain ⟨hlog, represents⟩ := ih
    have hcapacity := Nat.lt_of_lt_of_le Nat.zero_lt_one (Nat.le_max_right capacity 1)
    have remembers := IndexCache.remembers_run capacity files calls
    obtain ⟨hanswer, hnext⟩ := represents.answer hcapacity remembers files call
    rw [CacheMachine.run_append, CacheMachine.run_append]
    refine ⟨?_, hnext⟩
    change _ ++ [AnsweredCall.mk (order _) call _]
      = _ ++ [AnsweredCall.mk (IndexCache.heldKeys _) call _]
    rw [hlog, represents.order]
    exact congrArg (fun answer => _ ++ [AnsweredCall.mk _ call answer]) hanswer

theorem exists_answer_get_iff {queued : QueuedCache} {cache : IndexCache}
    (represents : queued.Represents cache) {project : Project} :
    (∃ held, (queued.answer (.get project)).1 = .ok (some held))
      ↔ project.cacheKey ∈ queued.order := by
  rw [represents.order, ← represents.mem_slots_iff, ← AList.lookup_isSome]
  simp only [answer, represents.slots]
  cases cache.lookup? project.cacheKey with
  | some held => simp
  | none => simp

theorem isExactLru (capacity : Nat) : (machine capacity).IsExactLru (max capacity 1) := by
  have listed := IndexCache.isExactLru capacity ⟨[], []⟩
  have log (calls : List CacheCall) := (represents_run capacity ⟨[], []⟩ calls).1
  have represents (calls : List CacheCall) := (represents_run capacity ⟨[], []⟩ calls).2
  constructor
  · intro calls
    change (order _).Nodup
    rw [(represents calls).order]
    exact listed.nodup calls
  · intro calls
    change (order _).length ≤ _
    rw [(represents calls).order]
    exact listed.bounded calls
  · intro calls
    change order _ = _
    rw [log calls, (represents calls).order]
    exact listed.recent calls
  · exact fun calls project => exists_answer_get_iff (represents calls)
  · intro calls project token htoken
    simp only [machine, answer, htoken, if_true]
  · intro calls
    change QueuedCache.builds _ = _
    rw [log calls, (represents calls).builds]
    exact listed.builds calls

end QueuedCache

/-- A cache without a store holds what was used last, whether its slots stand in a list or in a map
with a queue beside it. Both give the same answers, and the map has the keys of the queue. -/
theorem cache_exact_lru (capacity : Nat) (files : FileTree) :
    (IndexCache.machine capacity files).IsExactLru (max capacity 1)
      ∧ (QueuedCache.machine capacity).IsExactLru (max capacity 1)
      ∧ ∀ calls, ((QueuedCache.machine capacity).run calls).log
            = ((IndexCache.machine capacity files).run calls).log
          ∧ ((QueuedCache.machine capacity).run calls).state.slots.keys.Perm
            ((QueuedCache.machine capacity).run calls).state.order := by
  refine ⟨IndexCache.isExactLru capacity files, QueuedCache.isExactLru capacity, ?_⟩
  intro calls
  obtain ⟨hlog, represents⟩ := QueuedCache.represents_run capacity files calls
  exact ⟨hlog, represents.keys_perm ((IndexCache.isExactLru capacity files).nodup calls)⟩

end SymbolSearch
