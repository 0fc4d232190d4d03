import SymbolSearch.Proofs.Cached
import SymbolSearch.Proofs.Codec.RoundTrip
import SymbolSearch.Proofs.Store.Aside

/-!
# The store is read and repaired

A request for an index that is not held takes what the file for it says, if this can be read and has
the fingerprint of the project. Whatever else is there, the index is built and the file made right,
so that it is found from then on. The files of other projects and contents have nothing to do with
it.
-/

namespace SymbolSearch

namespace IndexStore

variable {files saved : FileTree}

/-- The file at a path is that of an index with the fingerprint. -/
def Holds (files : FileTree) (path : String) (fingerprint : Fingerprint) (index : SymbolIndex) :
    Prop :=
  ∃ bytes, files.read path = .ok bytes ∧ IndexCodec.decode bytes = .ok index
    ∧ index.fingerprint = fingerprint

theorem load_eq_ok_some_iff {path : String} {expected : Fingerprint} {index : SymbolIndex} :
    load files path expected = .ok (some index) ↔ Holds files path expected index := by
  rw [load, Holds]
  cases hread : files.read path with
  | error fault =>
    refine iff_of_false ?_ (by simp)
    cases fault <;> exact fun h => by cases h
  | ok bytes =>
    simp only [Except.ok.injEq, exists_eq_left']
    cases hdecode : IndexCodec.decode bytes with
    | error error => exact iff_of_false (fun h => by cases h) (by simp)
    | ok found =>
      change (if found.fingerprint = expected then Except.ok (some found)
        else .error (IndexError.fingerprintMismatch expected found.fingerprint)) = _ ↔ _
      by_cases hfingerprint : found.fingerprint = expected
      · rw [if_pos hfingerprint]
        constructor
        · intro h
          cases h
          exact ⟨rfl, hfingerprint⟩
        · rintro ⟨h, -⟩
          cases h
          rfl
      · rw [if_neg hfingerprint]
        refine iff_of_false (fun h => by cases h) ?_
        rintro ⟨h, hfingerprint'⟩
        cases h
        exact hfingerprint hfingerprint'

/-- A file was given a content, and no other file changed. -/
structure Rewritten (path : String) (content : Bytes) (files after : FileTree) : Prop where
  read : after.read path = .ok content
  others : ∃ place, after.locate path = .ok place ∧ FileTree.Keeps {place} files after

theorem rewritten_of_save {path : String} {index : SymbolIndex}
    (h : save files path index = .ok saved) :
    Rewritten path (IndexCodec.encode index) files saved := by
  rw [save] at h
  cases hmade : files.makeDirectories ((Path.parent? path).getD "") with
  | error fault =>
    rw [hmade] at h
    cases h
  | ok made =>
    rw [hmade] at h
    change (made.write path (IndexCodec.encode index)).mapError (ioError path) = _ at h
    cases hwritten : made.write path (IndexCodec.encode index) with
    | error fault =>
      rw [hwritten] at h
      cases h
    | ok written =>
      rw [hwritten] at h
      cases h
      obtain ⟨place, hplace, hentry, hparent, rfl⟩ := FileTree.write_eq_ok_iff.1 hwritten
      have keeps := FileTree.keeps_put_file hentry (IndexCodec.encode index)
      have hlocate := keeps.locate hplace
      refine ⟨FileTree.read_eq_ok_iff.2 ⟨place, hlocate, ?_⟩, place, hlocate, ?_⟩
      · rw [FileTree.entry_put (FileTree.ne_root_of_entry hentry), if_pos rfl]
      · exact ((FileTree.keeps_makeDirectories hmade).mono (Set.empty_subset _)).trans keeps

/-- What becomes of the files by requests over a directory, whoever makes them and for whatever. -/
inductive Later (directory : String) (files : FileTree) : FileTree → Prop
  | now : Later directory files files
  | request {after : FileTree} {cache : IndexCache} {project : Project} {token : Token}
    {request : IndexCache.Request} : Later directory files after →
    cache.directory = some directory → cache.getOrBuild after project token = .ok request →
    Later directory files request.files

end IndexStore

namespace IndexCache

open IndexStore

variable {files : FileTree} {cache : IndexCache} {directory : String} {project : Project}

/-! ### What is obtained -/

/-- An index is loaded if its file is there. -/
theorem obtain_of_holds {index : SymbolIndex}
    (h : Holds files (storedAt directory project.cacheKey) project.fingerprint index) :
    obtain (some directory) files project
      = ⟨index, true, files, [.treeLoaded project.id (storedAt directory project.cacheKey)]⟩ := by
  change loadOrBuild files project (storedAt directory project.cacheKey) = _
  rw [loadOrBuild, load_eq_ok_some_iff.2 h]

theorem buildAndSave_spec (files : FileTree) (project : Project) (path : String) :
    (buildAndSave files project path).index = .build project
      ∧ (buildAndSave files project path).wasLoaded = false
      ∧ (buildAndSave files project path).files
        = (save files path (.build project)).toOption.getD files := by
  rw [buildAndSave]
  cases save files path (.build project) <;> exact ⟨rfl, rfl, rfl⟩

/-- Otherwise it is built, and saved if it can be. -/
theorem obtain_of_not_holds
    (h : ∀ index, ¬ Holds files (storedAt directory project.cacheKey) project.fingerprint index) :
    (obtain (some directory) files project).index = .build project
      ∧ (obtain (some directory) files project).wasLoaded = false
      ∧ (obtain (some directory) files project).files
        = (save files (storedAt directory project.cacheKey) (.build project)).toOption.getD files := by
  change (loadOrBuild files project (storedAt directory project.cacheKey)).index = _
    ∧ (loadOrBuild files project (storedAt directory project.cacheKey)).wasLoaded = _
    ∧ (loadOrBuild files project (storedAt directory project.cacheKey)).files = _
  have hbuilt := buildAndSave_spec files project (storedAt directory project.cacheKey)
  rw [loadOrBuild]
  generalize buildAndSave files project (storedAt directory project.cacheKey) = built at hbuilt ⊢
  split
  · exact absurd (load_eq_ok_some_iff.1 (by assumption)) (h _)
  · exact hbuilt
  · exact hbuilt

/-- What a request gives for an index that is not held. -/
theorem use_of_absent_with_store (hdirectory : cache.directory = some directory)
    (habsent : cache.lookup? project.cacheKey = none) (files : FileTree) :
    (cache.use files project).held.index = (obtain (some directory) files project).index
      ∧ (cache.use files project).files = (obtain (some directory) files project).files
      ∧ (cache.use files project).cache.loads
        = cache.loads + (if (obtain (some directory) files project).wasLoaded then 1 else 0)
      ∧ (cache.use files project).cache.builds
        = cache.builds + (if (obtain (some directory) files project).wasLoaded then 0 else 1) := by
  simp only [use, habsent, hdirectory, true_and]
  cases (obtain (some directory) files project).wasLoaded <;> exact ⟨rfl, rfl⟩

theorem use_of_holds (hdirectory : cache.directory = some directory)
    (habsent : cache.lookup? project.cacheKey = none) {index : SymbolIndex}
    (h : Holds files (storedAt directory project.cacheKey) project.fingerprint index) :
    (cache.use files project).held.index = index
      ∧ (cache.use files project).cache.loads = cache.loads + 1
      ∧ (cache.use files project).cache.builds = cache.builds
      ∧ (cache.use files project).files = files := by
  obtain ⟨hindex, hfiles, hloads, hbuilds⟩ := use_of_absent_with_store hdirectory habsent files
  rw [hindex, hfiles, hloads, hbuilds, obtain_of_holds h]
  exact ⟨rfl, rfl, rfl, rfl⟩

theorem use_of_not_holds (hdirectory : cache.directory = some directory)
    (habsent : cache.lookup? project.cacheKey = none)
    (h : ∀ index, ¬ Holds files (storedAt directory project.cacheKey) project.fingerprint index)
    {saved : FileTree} (hsaved : save files (storedAt directory project.cacheKey) (.build project) = .ok saved) :
    (cache.use files project).held.index = .build project
      ∧ (cache.use files project).cache.loads = cache.loads
      ∧ (cache.use files project).cache.builds = cache.builds + 1
      ∧ (cache.use files project).files = saved := by
  obtain ⟨hindex, hfiles, hloads, hbuilds⟩ := use_of_absent_with_store hdirectory habsent files
  obtain ⟨hbuilt, hloaded, hafter⟩ := obtain_of_not_holds h
  rw [hindex, hfiles, hloads, hbuilds, hbuilt, hloaded, hafter, hsaved]
  exact ⟨rfl, rfl, rfl, rfl⟩

/-! ### Files of other keys -/

theorem unchanged_or_rewritten (hdirectory : cache.directory = some directory) (files : FileTree)
    (project : Project) : (cache.use files project).files = files
      ∨ Rewritten (storedAt directory project.cacheKey) (IndexCodec.encode (.build project)) files
        (cache.use files project).files := by
  cases hlookup : cache.lookup? project.cacheKey with
  | some held =>
    rw [use_of_held hlookup]
    exact .inl rfl
  | none =>
    by_cases hholds : ∃ index, Holds files (storedAt directory project.cacheKey) project.fingerprint index
    · obtain ⟨index, hindex⟩ := hholds
      exact .inl (use_of_holds hdirectory hlookup hindex).2.2.2
    · obtain ⟨-, hfiles, -⟩ := use_of_absent_with_store hdirectory hlookup files
      obtain ⟨-, -, hafter⟩ := obtain_of_not_holds (not_exists.1 hholds)
      rw [hfiles, hafter]
      cases hsaved : save files (storedAt directory project.cacheKey) (.build project) with
      | error error => exact .inl rfl
      | ok saved => exact .inr (rewritten_of_save hsaved)

/-- A request leaves the files of other keys as they are. -/
theorem read_of_use (hdirectory : cache.directory = some directory) {key : CacheKey}
    (hkey : key ≠ project.cacheKey) {content : Bytes}
    (h : files.read (storedAt directory key) = .ok content) :
    (cache.use files project).files.read (storedAt directory key)
      = .ok content := by
  rcases unchanged_or_rewritten hdirectory files project with hsame | ⟨-, place, hplace, keeps⟩
  · rw [hsame]
    exact h
  · apply keeps.read h
    rintro other hother rfl
    exact locate_storedAt_ne hkey (keeps.locate hother) hplace

/-- A request does not look at the files of other keys. -/
theorem use_of_write (hdirectory : cache.directory = some directory)
    (habsent : cache.lookup? project.cacheKey = none) {key : CacheKey}
    (hkey : key ≠ project.cacheKey) {content : Bytes} {changed : FileTree}
    (h : files.write (storedAt directory key) content = .ok changed) :
    (cache.use changed project).held = (cache.use files project).held
      ∧ (cache.use changed project).cache = (cache.use files project).cache := by
  have hread : changed.read (storedAt directory project.cacheKey) = files.read (storedAt directory project.cacheKey) :=
    read_of_write hkey h
  have hobtained : (obtain (some directory) changed project).index
        = (obtain (some directory) files project).index
      ∧ (obtain (some directory) changed project).wasLoaded
        = (obtain (some directory) files project).wasLoaded := by
    by_cases hholds : ∃ index, Holds files (storedAt directory project.cacheKey) project.fingerprint index
    · obtain ⟨index, hindex⟩ := hholds
      have hchanged : Holds changed (storedAt directory project.cacheKey) project.fingerprint index := by
        rwa [Holds, hread]
      rw [obtain_of_holds hindex, obtain_of_holds hchanged]
      exact ⟨rfl, rfl⟩
    · have hfiles := not_exists.1 hholds
      have hchanged : ∀ index,
          ¬ Holds changed (storedAt directory project.cacheKey) project.fingerprint index := by
        intro index hindex
        rw [Holds, hread] at hindex
        exact hfiles index hindex
      rw [(obtain_of_not_holds hfiles).1, (obtain_of_not_holds hchanged).1,
        (obtain_of_not_holds hfiles).2.1, (obtain_of_not_holds hchanged).2.1]
      exact ⟨rfl, rfl⟩
  simp only [use, habsent, hdirectory, hobtained, and_self]

/-- What a file holds it holds after any requests. -/
theorem holds_of_later {key : CacheKey} {index : SymbolIndex} {later : FileTree}
    (hlater : Later directory files later)
    (h : Holds files (storedAt directory key) key.fingerprint index) :
    Holds later (storedAt directory key) key.fingerprint index := by
  induction hlater with
  | now => exact h
  | @request after cache project token request _ hdirectory hrequest ih =>
    obtain rfl : cache.use after project = request := by
      rw [getOrBuild] at hrequest
      split at hrequest
      · cases hrequest
      · cases hrequest
        rfl
    by_cases hkey : key = project.cacheKey
    -- For the same key the file is loaded, and so it is not written.
    · subst hkey
      cases hlookup : cache.lookup? project.cacheKey with
      | some held =>
        rw [use_of_held hlookup]
        exact ih
      | none =>
        rw [(use_of_holds hdirectory hlookup ih).2.2.2]
        exact ih
    · obtain ⟨bytes, hread, hdecode⟩ := ih
      exact ⟨bytes, read_of_use hdirectory hkey hread, hdecode⟩

/-- An index that was stored is found by any cache that does not hold it. -/
theorem holds_of_rewritten {after : FileTree} (storable : (SymbolIndex.build project).Storable)
    (h : Rewritten (storedAt directory project.cacheKey) (IndexCodec.encode (.build project)) files after) :
    Holds after (storedAt directory project.cacheKey) project.fingerprint (.build project) := by
  have hdecode := IndexCodec.decode_encode (SymbolIndex.wellFormed_build project) storable
  exact ⟨_, h.read, hdecode, rfl⟩

/-- What a cache with a store does for an index that it does not hold. If the file is sound, its
index is loaded. If not, the index is built and its file rewritten, at once or aside; it is loaded
from then on by new caches, whatever was asked in between. Files of other projects and contents stand
elsewhere; they are neither changed nor looked at. -/
theorem getOrBuild_with_store (files : FileTree) {cache : IndexCache} {directory : String}
    {project : Project} {token : Token} (hdirectory : cache.directory = some directory)
    (habsent : cache.lookup? project.cacheKey = none) (htoken : token.cancelled = false) :
    let stored := storedAt directory project.cacheKey
    let built := SymbolIndex.build project
    ∃ request, cache.getOrBuild files project token = .ok request
      ∧ (∀ index, Holds files stored project.fingerprint index →
        request.held.index = index ∧ request.cache.loads = cache.loads + 1
          ∧ request.cache.builds = cache.builds ∧ request.files = files)
      ∧ ((∀ index, ¬ Holds files stored project.fingerprint index) →
        ∀ saved, save files stored built = .ok saved →
          (request.held.index = built ∧ request.cache.loads = cache.loads
            ∧ request.cache.builds = cache.builds + 1 ∧ request.files = saved)
          ∧ (∀ process drawn, drawn.Injective →
            saveAside process drawn files stored built = .ok saved)
          ∧ Rewritten stored (IndexCodec.encode built) files saved
          ∧ (built.Storable → ∀ later, Later directory saved later →
            ∀ capacity, ∃ again,
              (empty capacity (some directory)).getOrBuild later project token = .ok again
              ∧ again.held.index = built ∧ again.cache.loads = 1 ∧ again.cache.builds = 0
              ∧ again.files = later))
      ∧ ∀ other : CacheKey, other ≠ project.cacheKey →
        let elsewhere := storedAt directory other
        (∀ tree : FileTree, ∀ place, tree.locate stored = .ok place →
          tree.locate elsewhere ≠ .ok place)
        ∧ (∀ content, files.read elsewhere = .ok content →
          request.files.read elsewhere = .ok content)
        ∧ ∀ content changed, files.write elsewhere content = .ok changed →
          ∃ again, cache.getOrBuild changed project token = .ok again
            ∧ again.held = request.held ∧ again.cache = request.cache := by
  intro stored built
  have hlive (cache : IndexCache) (files : FileTree) :
      cache.getOrBuild files project token = .ok (cache.use files project) := by
    rw [getOrBuild, htoken]
    rfl
  refine ⟨cache.use files project, hlive cache files, ?_, ?_, ?_⟩
  · exact fun index hindex => use_of_holds hdirectory habsent hindex
  · intro hnone saved hsaved
    have hrewritten := rewritten_of_save hsaved
    refine ⟨use_of_not_holds hdirectory habsent hnone hsaved, ?_, hrewritten, ?_⟩
    · intro process drawn hdrawn
      rw [← hsaved]
      exact saveAside_eq_save hdrawn process files directory project.cacheKey built
    · intro storable later hlater capacity
      have hholds : Holds later stored project.fingerprint built :=
        holds_of_later hlater (holds_of_rewritten storable hrewritten)
      exact ⟨_, hlive _ later, use_of_holds rfl rfl hholds⟩
  · intro other hother elsewhere
    refine ⟨fun tree place hplace => locate_storedAt_ne (Ne.symm hother) hplace, ?_, ?_⟩
    · exact fun content h => read_of_use hdirectory hother h
    · exact fun content changed h => ⟨_, hlive cache changed, use_of_write hdirectory habsent hother h⟩

/-- A file that holds one byte is replaced by one that the next cache can load. -/
theorem getOrBuild_of_damaged_file :
    let project : Project := { info := ⟨⟨7⟩, "P", "P", "C#",
      [⟨⟨1⟩, "p.cs", [Declaration.ofName .classDecl "A"]⟩], [], []⟩ }
    let name := fileName project.cacheKey
    let files : FileTree := ⟨[], [(["store", name], .file [110]), (["store"], .directory)]⟩
    let cache := IndexCache.empty 4 (some "store")
    let built := SymbolIndex.build project
    (cache.lookup? project.cacheKey).isNone
      ∧ ∃ request, cache.getOrBuild files project ⟨false⟩ = .ok request
        ∧ request.held.index = built ∧ request.cache.builds = 1
        ∧ request.files.read (storedAt "store" project.cacheKey)
          = .ok (IndexCodec.encode built)
        ∧ ∃ again, cache.getOrBuild request.files project ⟨false⟩ = .ok again
          ∧ again.held.index = built ∧ again.cache.loads = 1 ∧ again.cache.builds = 0 := by
  intro project name files cache built
  have hread : (files.read (storedAt "store" project.cacheKey)).toOption = some [110] := by
    decide +kernel
  have hsaved : (save files (storedAt "store" project.cacheKey) built).isOk = true := by
    decide +kernel
  have storable : built.Storable := by decide +kernel
  have hnone : ∀ index, ¬ Holds files (storedAt "store" project.cacheKey) project.fingerprint
      index := by
    rintro index ⟨bytes, hbytes, hdecode, -⟩
    rw [hbytes] at hread
    cases hread
    have herror : (IndexCodec.decode [110]).isOk = false := by decide +kernel
    rw [hdecode] at herror
    cases herror
  cases hsave : save files (storedAt "store" project.cacheKey) built with
  | error error =>
    rw [hsave] at hsaved
    cases hsaved
  | ok saved =>
    obtain ⟨request, hrequest, -, hbuilt, -⟩ :=
      @getOrBuild_with_store files cache "store" project ⟨false⟩ rfl rfl rfl
    obtain ⟨⟨hindex, -, hbuilds, rfl⟩, -, hrewritten, hagain⟩ := hbuilt hnone saved hsave
    obtain ⟨again, hlater, hindex', hloads, hbuilds', -⟩ := hagain storable _ .now 4
    exact ⟨rfl, request, hrequest, hindex, hbuilds, hrewritten.read, again, hlater, hindex', hloads,
      hbuilds'⟩

end IndexCache

end SymbolSearch
