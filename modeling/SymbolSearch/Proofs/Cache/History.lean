import Mathlib.Data.List.Induction
import SymbolSearch.Proofs.Cached
import SymbolSearch.Proofs.Distinct

/-!
# The history of a cache

What a cache holds is told by what was asked of it: the keys that were used last, in the order of
their last uses, as many as there is room for. Calls are answered one after another; the log of a
run says of each what was held when it was made, and what the answer was.
-/

namespace SymbolSearch

/-! ### Recent items -/

section

variable {α : Type} [BEq α] [LawfulBEq α]

/-- The last `capacity` different items, in the order of their last occurrences. -/
def recent (capacity : Nat) (items : List α) : List α :=
  (items.reverse.eraseDups.take capacity).reverse

omit [LawfulBEq α] in
theorem recent_nil (capacity : Nat) : recent capacity ([] : List α) = [] := by
  simp [recent]

theorem nodup_recent (capacity : Nat) (items : List α) : (recent capacity items).Nodup := by
  rw [recent, List.nodup_reverse]
  exact (Distinct.nodup_eraseDups _).sublist (List.take_sublist _ _)

omit [LawfulBEq α] in
theorem length_recent_le (capacity : Nat) (items : List α) :
    (recent capacity items).length ≤ capacity := by
  rw [recent, List.length_reverse]
  exact List.length_take_le _ _

theorem take_filter_of_mem {a : α} {items : List α} (h : items.Nodup) {n : Nat}
    (ha : a ∈ items.take (n + 1)) :
    (items.filter (· != a)).take n = (items.take (n + 1)).filter (· != a) := by
  induction items generalizing n with
  | nil => simp
  | cons b rest ih =>
    obtain ⟨hb, hrest⟩ := List.nodup_cons.1 h
    rw [List.take_succ_cons] at ha ⊢
    by_cases hba : b = a
    · subst hba
      have hself : rest.filter (· != b) = rest := by
        apply List.filter_eq_self.2
        rintro c hc
        exact bne_iff_ne.2 fun hcb => hb (hcb ▸ hc)
      have htake : (rest.take n).filter (· != b) = rest.take n := by
        apply List.filter_eq_self.2
        rintro c hc
        exact bne_iff_ne.2 fun hcb => hb (hcb ▸ List.mem_of_mem_take hc)
      rw [List.filter_cons_of_neg (by simp), List.filter_cons_of_neg (by simp), hself, htake]
    · have hmem := (List.mem_cons.1 ha).resolve_left (Ne.symm hba)
      have hne : (b != a) = true := bne_iff_ne.2 hba
      obtain ⟨n, rfl⟩ : ∃ m, n = m + 1 := by
        cases n with
        | zero => cases hmem
        | succ m => exact ⟨m, rfl⟩
      simp only [List.filter_cons, hne, if_true, List.take_succ_cons]
      rw [ih hrest hmem]

theorem take_filter_of_not_mem {a : α} {items : List α} {n : Nat} (ha : a ∉ items.take n) :
    (items.filter (· != a)).take n = items.take n := by
  induction items generalizing n with
  | nil => rfl
  | cons b rest ih =>
    cases n with
    | zero => rfl
    | succ n =>
      rw [List.take_succ_cons, List.mem_cons, not_or] at ha
      have hne : (b != a) = true := bne_iff_ne.2 (Ne.symm ha.1)
      simp only [List.filter_cons, hne, if_true, List.take_succ_cons]
      rw [ih ha.2]

theorem recent_append (capacity : Nat) (items : List α) (a : α) :
    recent (capacity + 1) (items ++ [a])
      = ((items.reverse.eraseDups.filter (· != a)).take capacity).reverse ++ [a] := by
  rw [recent, List.reverse_append, List.reverse_singleton, List.singleton_append,
    List.eraseDups_cons, List.take_succ_cons, List.reverse_cons]
  change ((items.reverse.filter (· != a)).eraseDups.take capacity).reverse ++ [a] = _
  rw [Distinct.eraseDups_filter]

/-- A recent item that occurs again moves to the end. -/
theorem recent_append_of_mem {capacity : Nat} (hcapacity : 0 < capacity) {items : List α} {a : α}
    (h : a ∈ recent capacity items) :
    recent capacity (items ++ [a]) = (recent capacity items).filter (· != a) ++ [a] := by
  obtain ⟨capacity, rfl⟩ := Nat.exists_eq_succ_of_ne_zero (Nat.ne_of_gt hcapacity)
  rw [recent, List.mem_reverse] at h
  rw [recent_append, take_filter_of_mem (Distinct.nodup_eraseDups _) h, recent,
    List.filter_reverse]

/-- Any other item takes a place at the end, for which the first one is given up if need be. -/
theorem recent_append_of_not_mem {capacity : Nat} (hcapacity : 0 < capacity) {items : List α}
    {a : α} (h : a ∉ recent capacity items) :
    recent capacity (items ++ [a])
      = (recent capacity items).drop ((recent capacity items).length + 1 - capacity) ++ [a] := by
  obtain ⟨capacity, rfl⟩ := Nat.exists_eq_succ_of_ne_zero (Nat.ne_of_gt hcapacity)
  have hfew : a ∉ items.reverse.eraseDups.take capacity := by
    intro hmem
    rw [recent, List.mem_reverse] at h
    exact h (List.take_subset_take_left _ (Nat.le_succ capacity) hmem)
  rw [recent_append, take_filter_of_not_mem hfew, recent, List.length_reverse, List.drop_reverse,
    List.take_take, List.length_take]
  congr 2
  rw [List.take_eq_take_iff]
  omega

example : recent 2 [1, 2, 1, 3] = [1, 3] := by decide

end

/-! ### Calls and logs -/

/-- What is asked of a cache. -/
inductive CacheCall where
  | request (project : Project) (token : Token)
  | get (project : Project)
  | clear

/-- The index that was asked for, if there is one. -/
abbrev CacheAnswer := Except IndexError (Option HeldIndex)

/-- A call with the keys that were held when it was made, and the answer to it. -/
structure AnsweredCall where
  held : List CacheKey
  call : CacheCall
  answer : CacheAnswer

namespace AnsweredCall

def isClear (answered : AnsweredCall) : Bool :=
  match answered.call with
  | .clear => true
  | _ => false

/-- The key that is used: by a request unless its token is cancelled, or by getting an index. -/
def used? (answered : AnsweredCall) : Option CacheKey :=
  match answered.call, answered.answer with
  | .request project token, _ => if token.cancelled then none else some project.cacheKey
  | .get project, .ok (some _) => some project.cacheKey
  | _, _ => none

/-- An uncancelled request whose key was not held. -/
def isMiss (answered : AnsweredCall) : Bool :=
  match answered.call with
  | .request project token => !token.cancelled && !answered.held.contains project.cacheKey
  | _ => false

end AnsweredCall

/-- The keys that were used since the cache was cleared, one for every use. -/
def usesSinceClear (log : List AnsweredCall) : List CacheKey :=
  ((log.reverse.takeWhile fun answered => !answered.isClear).reverse).filterMap (·.used?)

theorem usesSinceClear_append (log : List AnsweredCall) (answered : AnsweredCall) :
    usesSinceClear (log ++ [answered])
      = if answered.isClear then [] else usesSinceClear log ++ answered.used?.toList := by
  rw [usesSinceClear, List.reverse_append, List.reverse_singleton, List.singleton_append,
    List.takeWhile_cons]
  cases answered.isClear with
  | true => rfl
  | false =>
    simp only [Bool.not_false, if_true, List.reverse_cons, List.filterMap_append]
    cases hused : answered.used? with
    | none => simp [hused, usesSinceClear]
    | some key => simp [hused, usesSinceClear]

/-! ### Runs -/

/-- Something that answers calls as a cache does. -/
structure CacheMachine (σ : Type) where
  start : σ
  answer : σ → CacheCall → CacheAnswer × σ
  keys : σ → List CacheKey
  builds : σ → Nat

structure CacheRun (σ : Type) where
  log : List AnsweredCall
  state : σ

namespace CacheMachine

variable {σ : Type}

def next (machine : CacheMachine σ) (run : CacheRun σ) (call : CacheCall) : CacheRun σ :=
  let (answer, state) := machine.answer run.state call
  ⟨run.log ++ [⟨machine.keys run.state, call, answer⟩], state⟩

def run (machine : CacheMachine σ) (calls : List CacheCall) : CacheRun σ :=
  calls.foldl machine.next ⟨[], machine.start⟩

theorem run_append (machine : CacheMachine σ) (calls : List CacheCall) (call : CacheCall) :
    machine.run (calls ++ [call]) = machine.next (machine.run calls) call := by
  rw [run, List.foldl_append]
  rfl

/-- The machine holds what was used last: after any calls, the keys are the last different ones that
were used since the last clear, in the order of their last uses. -/
structure IsExactLru (machine : CacheMachine σ) (capacity : Nat) : Prop where
  nodup : ∀ calls, (machine.keys (machine.run calls).state).Nodup
  bounded : ∀ calls, (machine.keys (machine.run calls).state).length ≤ capacity
  recent : ∀ calls, machine.keys (machine.run calls).state
    = recent capacity (usesSinceClear (machine.run calls).log)
  found : ∀ calls project,
    (∃ held, (machine.answer (machine.run calls).state (.get project)).1 = .ok (some held))
      ↔ project.cacheKey ∈ machine.keys (machine.run calls).state
  cancelled : ∀ calls project token, token.cancelled = true →
    machine.answer (machine.run calls).state (.request project token)
      = (.error .cancelled, (machine.run calls).state)
  builds : ∀ calls, machine.builds (machine.run calls).state
    = (machine.run calls).log.countP (·.isMiss)

end CacheMachine

/-! ### The cache without a store -/

namespace IndexCache

variable {capacity : Nat} {files : FileTree} {cache : IndexCache}

def heldKeys (cache : IndexCache) : List CacheKey := cache.slots.map (·.1)

theorem heldKeys_touch (key : CacheKey) (held : HeldIndex) :
    (cache.touch key held).heldKeys = cache.heldKeys.filter (· != key) ++ [key] := by
  rw [heldKeys, heldKeys, touch, List.filter_map, List.map_append]
  rfl

theorem heldKeys_insert (key : CacheKey) (held : HeldIndex) :
    (cache.insert key held).heldKeys = cache.heldKeys.drop cache.excess ++ [key] := by
  rw [heldKeys, heldKeys, insert, List.map_append, List.map_drop]
  rfl

theorem lookup?_eq_none_iff {key : CacheKey} :
    cache.lookup? key = none ↔ key ∉ cache.heldKeys := by
  rw [lookup?, List.lookup_eq_none_iff, heldKeys, List.mem_map]
  constructor
  · rintro h ⟨slot, hslot, rfl⟩
    exact bne_iff_ne.1 (h slot hslot) rfl
  · intro h slot hslot
    exact bne_iff_ne.2 fun hkey => h ⟨slot, hslot, hkey.symm⟩

theorem mem_heldKeys_of_lookup? {key : CacheKey} {held : HeldIndex}
    (h : cache.lookup? key = some held) : key ∈ cache.heldKeys :=
  List.mem_map_of_mem (mem_slots_of_lookup? h)

def answer (files : FileTree) (cache : IndexCache) : CacheCall → CacheAnswer × IndexCache
  | .request project token =>
    match cache.getOrBuild files project token with
    | .ok request => (.ok (some request.held), request.cache)
    | .error error => (.error error, cache)
  | .get project => (.ok (cache.get? project).1, (cache.get? project).2)
  | .clear => (.ok none, cache.clear)

def machine (capacity : Nat) (files : FileTree) : CacheMachine IndexCache :=
  ⟨.empty capacity none, answer files, heldKeys, builds⟩

theorem answer_request_of_cancelled (project : Project) {token : Token}
    (htoken : token.cancelled = true) :
    cache.answer files (.request project token) = (.error .cancelled, cache) := by
  simp only [answer, getOrBuild, htoken, if_true]

theorem answer_request_of_live (project : Project) {token : Token}
    (htoken : token.cancelled = false) :
    cache.answer files (.request project token)
      = (.ok (some (cache.use files project).held), (cache.use files project).cache) := by
  simp only [answer, getOrBuild, htoken, Bool.false_eq_true, if_false]

theorem answer_get_of_held {project : Project} {held : HeldIndex}
    (h : cache.lookup? project.cacheKey = some held) :
    cache.answer files (.get project)
      = (.ok (some held), cache.touch project.cacheKey held) := by
  simp only [answer, get?, h]

theorem answer_get_of_absent {project : Project} (h : cache.lookup? project.cacheKey = none) :
    cache.answer files (.get project) = (.ok none, cache) := by
  simp only [answer, get?, h]

/-- The keys that a cache holds are the last ones that were used, and it has built an index for each
miss. -/
structure Remembers (capacity : Nat) (log : List AnsweredCall) (cache : IndexCache) : Prop where
  directory : cache.directory = none
  loads : cache.loads = 0
  capacity_eq : cache.capacity = capacity
  keys : cache.heldKeys = recent capacity (usesSinceClear log)
  builds : cache.builds = log.countP (·.isMiss)

namespace Remembers

variable {log : List AnsweredCall}

theorem nodup (remembers : cache.Remembers capacity log) : cache.heldKeys.Nodup := by
  rw [remembers.keys]
  exact nodup_recent _ _

/-- A call by which no key is used and nothing is built. -/
theorem idle (remembers : cache.Remembers capacity log) {answered : AnsweredCall}
    (hclear : answered.isClear = false) (hused : answered.used? = none)
    (hmiss : answered.isMiss = false) : cache.Remembers capacity (log ++ [answered]) where
  directory := remembers.directory
  loads := remembers.loads
  capacity_eq := remembers.capacity_eq
  keys := by
    rw [remembers.keys, usesSinceClear_append, hclear, hused]
    simp
  builds := by
    rw [remembers.builds, List.countP_append, List.countP_singleton, hmiss]
    rfl

theorem clear (remembers : cache.Remembers capacity log) {answered : AnsweredCall}
    (hclear : answered.isClear = true) (hmiss : answered.isMiss = false) :
    cache.clear.Remembers capacity (log ++ [answered]) where
  directory := remembers.directory
  loads := remembers.loads
  capacity_eq := remembers.capacity_eq
  keys := by
    rw [usesSinceClear_append, hclear, if_pos rfl, recent_nil]
    rfl
  builds := by
    rw [List.countP_append, List.countP_singleton, hmiss]
    exact remembers.builds

/-- A use of a key that is held. -/
theorem touch (hcapacity : 0 < capacity) (remembers : cache.Remembers capacity log)
    {answered : AnsweredCall} {key : CacheKey} {held : HeldIndex}
    (h : cache.lookup? key = some held) (hclear : answered.isClear = false)
    (hused : answered.used? = some key) (hmiss : answered.isMiss = false) :
    (cache.touch key held).Remembers capacity (log ++ [answered]) where
  directory := remembers.directory
  loads := remembers.loads
  capacity_eq := remembers.capacity_eq
  keys := by
    have hmem := mem_heldKeys_of_lookup? h
    rw [remembers.keys] at hmem
    rw [heldKeys_touch, remembers.keys, usesSinceClear_append, hclear, hused]
    exact (recent_append_of_mem hcapacity hmem).symm
  builds := by
    rw [List.countP_append, List.countP_singleton, hmiss]
    exact remembers.builds

/-- A use of a key that is not held, for which an index is built. -/
theorem insert (hcapacity : 0 < capacity) (remembers : cache.Remembers capacity log)
    {answered : AnsweredCall} {key : CacheKey} (held : HeldIndex)
    (h : cache.lookup? key = none) (hclear : answered.isClear = false)
    (hused : answered.used? = some key) (hmiss : answered.isMiss = true) :
    Remembers capacity (log ++ [answered])
      { cache.insert key held with builds := cache.builds + 1 } where
  directory := remembers.directory
  loads := remembers.loads
  capacity_eq := remembers.capacity_eq
  keys := by
    have hmem := lookup?_eq_none_iff.1 h
    have hlength : cache.slots.length = cache.heldKeys.length := (List.length_map _).symm
    change (cache.insert key held).heldKeys = _
    rw [heldKeys_insert, excess, hlength, remembers.capacity_eq, remembers.keys,
      usesSinceClear_append, hclear, hused]
    rw [remembers.keys] at hmem
    exact (recent_append_of_not_mem hcapacity hmem).symm
  builds := by
    rw [List.countP_append, List.countP_singleton, hmiss, ← remembers.builds]
    rfl

/-- What a cache holds is told by its log after one more call. -/
theorem answer (hcapacity : 0 < capacity) (remembers : cache.Remembers capacity log)
    (call : CacheCall) : (cache.answer files call).2.Remembers capacity
      (log ++ [⟨cache.heldKeys, call, (cache.answer files call).1⟩]) := by
  cases call with
  | request project token =>
    cases htoken : token.cancelled with
    | true =>
      rw [answer_request_of_cancelled project htoken]
      exact remembers.idle rfl (by simp [AnsweredCall.used?, htoken])
        (by simp [AnsweredCall.isMiss, htoken])
    | false =>
      rw [answer_request_of_live project htoken]
      cases hlookup : cache.lookup? project.cacheKey with
      | some held =>
        have hmem := mem_heldKeys_of_lookup? hlookup
        rw [use_of_held hlookup]
        exact remembers.touch hcapacity hlookup rfl (by simp [AnsweredCall.used?, htoken])
          (by simp [AnsweredCall.isMiss, hmem])
      | none =>
        have hmem := lookup?_eq_none_iff.1 hlookup
        obtain ⟨-, hcache⟩ := use_of_absent remembers.directory hlookup files
        rw [hcache]
        exact remembers.insert hcapacity _ hlookup rfl (by simp [AnsweredCall.used?, htoken])
          (by simp [AnsweredCall.isMiss, htoken, hmem])
  | get project =>
    cases hlookup : cache.lookup? project.cacheKey with
    | some held =>
      rw [answer_get_of_held hlookup]
      exact remembers.touch hcapacity hlookup rfl rfl rfl
    | none =>
      rw [answer_get_of_absent hlookup]
      exact remembers.idle rfl rfl rfl
  | clear => exact remembers.clear rfl rfl

end Remembers

theorem remembers_run (capacity : Nat) (files : FileTree) (calls : List CacheCall) :
    ((machine capacity files).run calls).state.Remembers (max capacity 1)
      ((machine capacity files).run calls).log := by
  induction calls using List.reverseRecOn with
  | nil => exact ⟨rfl, rfl, rfl, (recent_nil _).symm, rfl⟩
  | append_singleton calls call ih =>
    rw [CacheMachine.run_append]
    exact ih.answer (Nat.lt_of_lt_of_le Nat.zero_lt_one (Nat.le_max_right capacity 1)) call

theorem exists_answer_get_iff {project : Project} :
    (∃ held, (cache.answer files (.get project)).1 = .ok (some held))
      ↔ project.cacheKey ∈ cache.heldKeys := by
  cases hlookup : cache.lookup? project.cacheKey with
  | some held =>
    rw [answer_get_of_held hlookup]
    exact iff_of_true ⟨held, rfl⟩ (mem_heldKeys_of_lookup? hlookup)
  | none =>
    rw [answer_get_of_absent hlookup]
    refine iff_of_false ?_ (lookup?_eq_none_iff.1 hlookup)
    rintro ⟨held, h⟩
    cases h

theorem isExactLru (capacity : Nat) (files : FileTree) :
    (machine capacity files).IsExactLru (max capacity 1) := by
  have remembers (calls : List CacheCall) := remembers_run capacity files calls
  constructor
  · exact fun calls => (remembers calls).nodup
  · intro calls
    change (heldKeys _).length ≤ _
    rw [(remembers calls).keys]
    exact length_recent_le _ _
  · exact fun calls => (remembers calls).keys
  · exact fun calls project => @exists_answer_get_iff files _ project
  · exact fun calls project token htoken => answer_request_of_cancelled project htoken
  · exact fun calls => (remembers calls).builds

end IndexCache

end SymbolSearch
