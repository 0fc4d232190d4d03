import SymbolSearch.Proofs.Search.Answered
import SymbolSearch.Proofs.Search.Local
import SymbolSearch.Proofs.Wire.Faults

/-!
# Replies to any frame

A worker may be sent any bytes. They are a request for a target that it knows, and then the reply
lists what is found there; or they are not, and then the reply says why. What it says is short, so
it is only a list that may not fit into a frame.
-/

namespace SymbolSearch

variable {hashed : Set Bytes}

/-! ### What fits into a frame -/

/-- The message keeps the limits of the protocol, and there is room in a frame for its parts. -/
def Message.Fits (message : Message) : Prop :=
  message.KeepsLimits ∧ (Wire.messageBytes message).length + 4 ≤ Wire.maxPayload

theorem Message.fits_iff {message : Message} :
    message.Fits ↔ ∃ frame, Wire.encode message = .ok frame := by
  constructor
  · rintro ⟨hlimits, hlength⟩
    exact ⟨_, Wire.encode_eq_ok_iff.2 ⟨hlimits, hlength, rfl⟩⟩
  · rintro ⟨frame, hencoded⟩
    obtain ⟨hlimits, hlength, -⟩ := Wire.encode_eq_ok_iff.1 hencoded
    exact ⟨hlimits, hlength⟩

theorem Message.fits_error {text : String} (h : Text.AtMost 16384 text) :
    (Message.error text).Fits := by
  have hbytes : (Wire.messageBytes (.error text)).length = 4 + (8 + text.utf8ByteSize) := by
    rw [← Bytes.length_ofString]
    simp only [Wire.messageBytes, Wire.textBytes, Wire.tagBytes, Bytes.ofCount, Bytes.ofLength,
      List.length_append, Bytes.length_littleEndian]
  have hsize : text.utf8ByteSize ≤ 16384 := h
  refine ⟨h, ?_⟩
  rw [hbytes, Wire.maxPayload]
  omega

/-! ### Symbols that are found -/

namespace Engine

variable {editFallback : Bool} {query : Query} {options : SearchOptions} {solution : Solution}

theorem pairwise_found (hids : solution.ids.Nodup) {target : SearchTarget}
    (htarget : ∀ id ∈ target.project?, id ∈ solution.ids) :
    (found editFallback solution.indexes target query options).Pairwise
      fun a b => (b == a) = false := by
  cases target with
  | solution =>
    rw [found_solution hids]
    exact pairwise_flatMap_partOf hids
  | project id =>
    obtain ⟨project, hproject, rfl⟩ := List.mem_map.1 (htarget id rfl)
    rw [found, foundAt_of_mem hids hproject]
    exact pairwise_partOf project

/-- What is found has as many descriptors. -/
theorem distinct_descriptors_found (hids : solution.ids.Nodup) {target : SearchTarget}
    (htarget : ∀ id ∈ target.project?, id ∈ solution.ids) :
    distinct ((found editFallback solution.indexes target query options).map (·.descriptor))
      = (found editFallback solution.indexes target query options).map (·.descriptor) := by
  rw [LiveSymbol.distinct_map_descriptor fun symbol hsymbol => (isIn_of_mem_found hsymbol).2]
  exact congrArg (List.map _) (Distinct.eraseDups_eq_self_of_pairwise (pairwise_found hids htarget))

theorem run_search_of_unknown (editFallback : Bool) (query : Query) (options : SearchOptions)
    {id : ProjectId} (hid : id ∉ solution.ids) {session : Session Unit}
    (live : session.IsLive hashed) :
    (search editFallback solution.graph (.project id) query options).run session
      = (.error (.unknownProject id), session) := by
  have hproject : solution.graph.project? id = none := Solution.get?_eq_none hid
  have hask := SearchM.run_askProject live.asksLeft solution.graph id
  rw [hproject] at hask
  rw [search, searchOne, SearchM.run_bind (SearchM.run_checkToken live.token),
    SearchM.run_bind hask]
  rfl

end Engine

namespace Worker

/-! ### What a frame asks for -/

/-- The frame is a request for a target of a snapshot that is registered with the worker. -/
structure Asks (worker : Worker) (frame : Bytes) (request : FindRequest) (graph : ProjectGraph) :
    Prop where
  decoded : Wire.decode frame = .ok (.find request)
  snapshot : worker.snapshots.lookup request.checksum = some graph
  project : ∀ id ∈ request.project, id ∈ graph.ids

/-- The frame is no request that the worker can answer, as the text says. -/
inductive Refuses (worker : Worker) (frame : Bytes) : String → Prop
  | malformed {error : WireError} : Wire.decode frame = .error error →
    Refuses worker frame s!"malformed request: {error.message}"
  | notRequest {message : Message} : Wire.decode frame = .ok message →
    (∀ request, message ≠ .find request) →
    Refuses worker frame "expected a FindDeclarations request"
  | unknownSnapshot {request : FindRequest} : Wire.decode frame = .ok (.find request) →
    worker.snapshots.lookup request.checksum = none →
    Refuses worker frame s!"unknown solution snapshot {request.checksum.hex}"
  | unknownProject {request : FindRequest} {graph : ProjectGraph} {id : ProjectId} :
    Wire.decode frame = .ok (.find request) →
    worker.snapshots.lookup request.checksum = some graph →
    request.project = some id → id ∉ graph.ids →
    Refuses worker frame s!"{id.display} is not part of the solution"

variable {worker : Worker} {frame : Bytes}

theorem not_asks_iff :
    (¬ ∃ request graph, worker.Asks frame request graph) ↔ ∃ text, worker.Refuses frame text := by
  constructor
  -- There is one refusal for each step at which the frame turns out not to be such a request.
  · intro hnot
    cases hdecoded : Wire.decode frame with
    | error error => exact ⟨_, .malformed hdecoded⟩
    | ok message =>
      cases message with
      | declarations symbols => exact ⟨_, .notRequest hdecoded (by simp)⟩
      | error text => exact ⟨_, .notRequest hdecoded (by simp)⟩
      | find request =>
        cases hsnapshot : worker.snapshots.lookup request.checksum with
        | none => exact ⟨_, .unknownSnapshot hdecoded hsnapshot⟩
        | some graph =>
          cases hproject : request.project with
          | none =>
            refine absurd ⟨request, graph, hdecoded, hsnapshot, fun id hid => ?_⟩ hnot
            rw [hproject] at hid
            cases hid
          | some id =>
            refine ⟨_, .unknownProject hdecoded hsnapshot hproject fun hid => hnot ?_⟩
            refine ⟨request, graph, hdecoded, hsnapshot, fun other hother => ?_⟩
            rw [hproject] at hother
            obtain rfl := Option.some.inj hother
            exact hid
  · rintro ⟨text, refuses⟩ ⟨request, graph, asks⟩
    cases refuses with
    | malformed hdecoded =>
      rw [asks.decoded] at hdecoded
      cases hdecoded
    | notRequest hdecoded hother =>
      rw [asks.decoded] at hdecoded
      cases hdecoded
      exact hother request rfl
    | unknownSnapshot hdecoded hsnapshot =>
      rw [asks.decoded] at hdecoded
      cases hdecoded
      rw [asks.snapshot] at hsnapshot
      cases hsnapshot
    | unknownProject hdecoded hsnapshot hproject hid =>
      rw [asks.decoded] at hdecoded
      cases hdecoded
      rw [asks.snapshot] at hsnapshot
      cases hsnapshot
      exact hid (asks.project _ hproject)

/-- Whatever the bytes are, the text fits into a reply. -/
theorem Refuses.atMost (hframe : frame.length < Bytes.limit 8) {text : String}
    (refuses : worker.Refuses frame text) : Text.AtMost 16384 text := by
  cases refuses with
  | malformed hdecoded =>
    have hmessage := (Wire.isBrief_of_decode hframe hdecoded).atMost_message
    exact ((Text.atMost_self _).append hmessage).mono (by decide)
  | notRequest => exact (Text.atMost_self _).mono (by decide)
  | @unknownSnapshot request =>
    have hhex := Text.atMost_hex request.checksum.toBytes
    rw [Fingerprint.length_toBytes] at hhex
    exact ((Text.atMost_self _).append hhex).mono (by decide)
  | @unknownProject request graph id =>
    have hnumber : Text.AtMost 80 (toString id.number.toNat) :=
      Text.atMost_number ((Bytes.toNat_lt_limit id.number).trans (by decide))
    have hname : Text.AtMost 90 id.display := ((Text.atMost_self _).append hnumber).mono (by decide)
    exact (hname.append (Text.atMost_self _)).mono (by decide)

/-! ### What a worker makes of a frame -/

section

variable (free : CollisionFree hashed) (knows : worker.Knows hashed) {session : Session Unit}
  (live : session.IsLive hashed)

include knows live

theorem run_reply_of_refuses {text : String} (refuses : worker.Refuses frame text) :
    ∃ after, (worker.reply frame).run session = (some (.error text), after) := by
  cases refuses with
  | malformed hdecoded =>
    refine ⟨session, ?_⟩
    rw [reply, hdecoded]
    rfl
  | @notRequest message hdecoded hother =>
    refine ⟨session, ?_⟩
    rw [reply, hdecoded]
    cases message with
    | find request => exact absurd rfl (hother request)
    | declarations symbols => rfl
    | error text => rfl
  | unknownSnapshot hdecoded hsnapshot =>
    refine ⟨session, ?_⟩
    rw [reply, hdecoded]
    exact run_findDeclarations_unknown hsnapshot session
  | @unknownProject request graph id hdecoded hsnapshot hproject hid =>
    obtain ⟨solution, -, -, rfl⟩ := knows.exists_solution hsnapshot
    -- The search itself is what notices that the project is missing.
    have hsearch : (Engine.search worker.editFallback solution.graph
        (.ofProject? request.project) (.named request.query)
        ⟨request.filter, request.scope⟩).run session = (.error (.unknownProject id), session) := by
      rw [hproject]
      exact Engine.run_search_of_unknown _ _ _ hid live
    refine ⟨session, ?_⟩
    rw [reply, hdecoded]
    exact run_findDeclarations_registered hsnapshot hsearch

include free

/-- The reply lists what a search of the target finds, where nothing has the descriptor of anything
else. -/
theorem run_reply_of_asks {request : FindRequest} {graph : ProjectGraph}
    (asks : worker.Asks frame request graph) :
    ∃ symbols after,
      (Engine.search worker.editFallback graph (.ofProject? request.project)
        (.named request.query) ⟨request.filter, request.scope⟩).run session = (.ok symbols, after)
      ∧ (worker.reply frame).run session
        = (some (.declarations (distinct (symbols.map (·.descriptor)))), after)
      ∧ (graph.ids.Nodup →
        distinct (symbols.map (·.descriptor)) = symbols.map (·.descriptor)) := by
  obtain ⟨solution, hsolution, -, rfl⟩ := knows.exists_solution asks.snapshot
  obtain ⟨after, hsearch, -⟩ :=
    run_search_known free worker.editFallback hsolution asks.project live
  refine ⟨_, after, hsearch, ?_, fun hids => Engine.distinct_descriptors_found hids ?_⟩
  · rw [reply, asks.decoded]
    exact run_findDeclarations_registered asks.snapshot hsearch
  · rw [project?_ofProject?]
    exact asks.project

end

/-- What becomes of a reply: there is a frame for it if it fits into one, and this is accepted. -/
theorem run_handleFrame_of_fits {session after : Session Unit} {message : Message}
    (h : (worker.reply frame).run session = (some message, after)) :
    (message.Fits → ∃ reply, ((worker.handleFrame frame).run session).1.1 = .ok reply
        ∧ Wire.decode reply = .ok message)
      ∧ (¬ message.Fits →
        ∃ error, ((worker.handleFrame frame).run session).1.1 = .error (.notEncodable error)) := by
  rw [run_handleFrame h, Message.fits_iff]
  cases hencoded : Wire.encode message with
  | ok reply => exact ⟨fun _ => ⟨reply, rfl, Wire.decode_of_encode hencoded⟩, by simp⟩
  | error error => exact ⟨by simp, fun _ => ⟨error, rfl⟩⟩

theorem decode_of_handleFrame {session after : Session Unit} {message : Message} {reply : Bytes}
    (h : (worker.reply frame).run session = (some message, after))
    (hok : ((worker.handleFrame frame).run session).1.1 = .ok reply) :
    Wire.decode reply = .ok message := by
  rw [run_handleFrame h] at hok
  cases hencoded : Wire.encode message with
  | ok frame =>
    rw [hencoded] at hok
    cases hok
    exact Wire.decode_of_encode hencoded
  | error error =>
    rw [hencoded] at hok
    cases hok

/-- Any bytes are either a request for a target of a registered snapshot or they are not. If they
are, the search of this target succeeds, and the reply lists the descriptors of what it finds, each
but once; if this list does not fit into a frame, there is no reply, and this is the only case in
which there is none. If they are not, the reply is an error that says why. The frame of a reply is
always accepted, and what it holds tells the two kinds of bytes apart. -/
theorem handleFrame_replies (free : CollisionFree hashed) {worker : Worker}
    (reachable : worker.Reachable hashed) {frame : Bytes} (hframe : frame.length < Bytes.limit 8)
    {session : Session Unit} (ready : session.IsReady hashed) :
    let result := ((worker.handleFrame frame).run session).1.1
    let asked := ∃ request graph, worker.Asks frame request graph
    (∀ request graph, worker.Asks frame request graph → ∃ symbols,
        ((Engine.search worker.editFallback graph (.ofProject? request.project)
          (.named request.query) ⟨request.filter, request.scope⟩).run session).1 = .ok symbols
        ∧ let listed := distinct (symbols.map (·.descriptor))
          (graph.ids.Nodup → listed = symbols.map (·.descriptor))
          ∧ ((Message.declarations listed).Fits →
            ∃ reply, result = .ok reply ∧ Wire.decode reply = .ok (.declarations listed))
          ∧ (¬ (Message.declarations listed).Fits →
            ∃ error, result = .error (.notEncodable error)))
      ∧ (∀ text, worker.Refuses frame text →
        ∃ reply, result = .ok reply ∧ Wire.decode reply = .ok (.error text))
      ∧ (¬ asked ↔ ∃ text, worker.Refuses frame text)
      ∧ (∀ fault, result = .error fault → asked)
      ∧ ∀ reply, result = .ok reply → ∃ answer, Wire.decode reply = .ok answer
        ∧ ((∃ descriptors, answer = .declarations descriptors) ↔ asked)
        ∧ ((∃ text, answer = .error text) ↔ ¬ asked) := by
  intro result asked
  have live := ready.live free
  have knows := reachable.knows
  have hrefused (text : String) (refuses : worker.Refuses frame text) :
      ∃ reply, result = .ok reply ∧ Wire.decode reply = .ok (.error text) := by
    obtain ⟨after, hrun⟩ := run_reply_of_refuses knows live refuses
    exact (run_handleFrame_of_fits hrun).1
      (Message.fits_error (refuses.atMost hframe))
  refine ⟨?_, hrefused, not_asks_iff, ?_, ?_⟩
  · intro request graph asks
    obtain ⟨symbols, after, hsearch, hrun, hnodup⟩ := run_reply_of_asks free knows live asks
    obtain ⟨hfits, hnot⟩ := run_handleFrame_of_fits hrun
    exact ⟨symbols, by rw [hsearch], hnodup, hfits, hnot⟩
  · intro fault hfault
    by_contra hasked
    obtain ⟨text, refuses⟩ := not_asks_iff.1 hasked
    obtain ⟨reply, hok, -⟩ := hrefused text refuses
    cases hfault.symm.trans hok
  · intro reply hok
    by_cases hasked : asked
    · obtain ⟨request, graph, asks⟩ := id hasked
      obtain ⟨symbols, after, -, hrun, -⟩ := run_reply_of_asks free knows live asks
      exact ⟨_, decode_of_handleFrame hrun hok, by simp [hasked], by simp [hasked]⟩
    · obtain ⟨text, refuses⟩ := not_asks_iff.1 hasked
      obtain ⟨after, hrun⟩ := run_reply_of_refuses knows live refuses
      exact ⟨_, decode_of_handleFrame hrun hok, by simp [hasked], by simp [hasked]⟩

/-- A worker with one class: asked for it, it lists the class; the empty frame is refused. -/
theorem handleFrame_replies_to_both :
    let project : Project := { info := ⟨⟨1⟩, "P", "P", "C#",
      [⟨⟨1⟩, "p.cs", [Declaration.ofName .classDecl "A"]⟩], [], []⟩ }
    let solution : Solution := ⟨[project]⟩
    let hashed : Set Bytes := {project.info.content, solution.content}
    let worker := (new true).register solution.graph
    let request : FindRequest := ⟨solution.checksum, some ⟨1⟩, .exact "A", .all, .sourceOnly⟩
    let frame := (Wire.encode (.find request)).toOption.getD []
    let session : Session Unit := ⟨.empty 1 none, ⟨[], []⟩, ⟨false⟩, none, [], ()⟩
    let result := fun frame => ((worker.handleFrame frame).run session).1.1
    (CollisionFree hashed ∧ worker.Reachable hashed ∧ session.IsReady hashed)
      ∧ (∃ reply, result frame = .ok reply ∧ Wire.decode reply
        = .ok (.declarations [⟨⟨[⟨.classDecl, "A", 0, []⟩], .source⟩, ⟨1⟩⟩]))
      ∧ ∃ reply, result [] = .ok reply ∧ Wire.decode reply = .ok (.error ("malformed request: "
        ++ "frame length mismatch: prefix declares 4 bytes, 0 available")) := by
  intro project solution hashed worker request frame session result
  have hfirst : (Fingerprint.ofContent project.info.content).bytes[0]
      ≠ (Fingerprint.ofContent solution.content).bytes[0] := by decide +kernel
  have hlengths : project.info.content.length < Bytes.limit 8
      ∧ solution.content.length < Bytes.limit 8 := by decide +kernel
  have free : CollisionFree hashed := .pair hlengths.1 hlengths.2 hfirst
  have hsolution : solution.IsHashed hashed := Solution.isHashed_singleton project
  have reachable : worker.Reachable hashed := .register (.new true) hsolution
  have ready : session.IsReady hashed := ⟨rfl, rfl, .empty 1⟩
  have hempty : ([] : Bytes).length < Bytes.limit 8 := by decide
  have hsent := Wire.encode_eq_getD (by decide +kernel :
    (Wire.encode (.find request)).isOk = true)
  have hshort : frame.length < Bytes.limit 8 := by decide +kernel
  have asks : worker.Asks frame request solution.graph := by
    refine ⟨Wire.decode_of_encode hsent, List.lookup_cons_self, fun id hid => ?_⟩
    obtain rfl := Option.some.inj hid
    exact List.mem_cons_self
  refine ⟨⟨free, reachable, ready⟩, ?_, ?_⟩
  · obtain ⟨symbols, hsearch, -, hfits, -⟩ :=
      (handleFrame_replies free reachable hshort ready).1 request solution.graph asks
    have hlisted : ((Engine.search worker.editFallback solution.graph (.project ⟨1⟩)
        (.named request.query) ⟨request.filter, request.scope⟩).run session).1.toOption.map
          (fun symbols => distinct (symbols.map (·.descriptor)))
        = some [⟨⟨[⟨.classDecl, "A", 0, []⟩], .source⟩, ⟨1⟩⟩] := by decide +kernel
    have hdescriptors : distinct (symbols.map (·.descriptor))
        = [⟨⟨[⟨.classDecl, "A", 0, []⟩], .source⟩, ⟨1⟩⟩] := by
      change ((Engine.search worker.editFallback solution.graph (.project ⟨1⟩)
        (.named request.query) ⟨request.filter, request.scope⟩).run session).1 = _ at hsearch
      rw [hsearch] at hlisted
      exact Option.some.inj hlisted
    rw [hdescriptors] at hfits
    exact hfits (Message.fits_iff.2 ⟨_, Wire.encode_eq_getD (by decide +kernel)⟩)
  · have htext : s!"malformed request: {(WireError.lengthMismatch 4 0).message}"
        = "malformed request: " ++ "frame length mismatch: prefix declares 4 bytes, 0 available" :=
      String.toList_injective (by decide +kernel)
    rw [← htext]
    exact (handleFrame_replies free reachable hempty ready).2.1 _ (.malformed rfl)

end Worker

end SymbolSearch
