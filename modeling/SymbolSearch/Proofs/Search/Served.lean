import SymbolSearch.Proofs.Search.Replied

/-!
# What a worker counts

A worker counts the replies that it comes up with. A call that is cancelled has none, and is not
counted. But a reply is counted before it is put into a frame, so a call whose reply does not fit
into one is counted too, although its caller gets nothing.
-/

namespace SymbolSearch

namespace Worker

/-- What can be done to a worker. Every call works on a session of its own. -/
inductive Act where
  | register (graph : ProjectGraph)
  | unregister (checksum : Fingerprint)
  | setAvailable (available : Bool)
  | handleFrame (frame : Bytes) (session : Session Unit)

/-- The result of the call, if it is one, and the worker after it. -/
def act (worker : Worker) : Act → List (Except WorkerFault Bytes) × Worker
  | .register graph => ([], worker.register graph)
  | .unregister checksum => ([], (worker.unregister checksum).2)
  | .setAvailable available => ([], { worker with available })
  | .handleFrame frame session =>
    let handled := ((worker.handleFrame frame).run session).1
    ([handled.1], handled.2)

/-- The results of all calls, in their order, and the worker after them. -/
def actAll (worker : Worker) : List Act → List (Except WorkerFault Bytes) × Worker
  | [] => ([], worker)
  | act :: acts =>
    let first := worker.act act
    let rest := first.2.actAll acts
    (first.1 ++ rest.1, rest.2)

/-- There was a reply, but no frame for it. -/
def isUnframed : Except WorkerFault Bytes → Bool
  | .error (.notEncodable _) => true
  | _ => false

theorem isUnframed_iff {result : Except WorkerFault Bytes} :
    isUnframed result = true ↔ ∃ error, result = .error (.notEncodable error) := by
  rcases result with (_ | error) | frame
  · simp [isUnframed]
  · simp [isUnframed]
  · simp [isUnframed]

/-- How many of the calls had a reply, whether it was put into a frame or not. -/
def replied (results : List (Except WorkerFault Bytes)) : Nat :=
  results.countP (·.isOk) + results.countP isUnframed

theorem replied_append (first rest : List (Except WorkerFault Bytes)) :
    replied (first ++ rest) = replied first + replied rest := by
  simp only [replied, List.countP_append]
  omega

/-- A call is counted exactly if there is a reply. -/
theorem served_handleFrame (worker : Worker) (frame : Bytes) (session : Session Unit) :
    ((worker.handleFrame frame).run session).1.2.served
      = worker.served + replied [((worker.handleFrame frame).run session).1.1] := by
  rcases hrun : (worker.reply frame).run session with ⟨_ | message, after⟩
  · rw [run_handleFrame_of_cancelled hrun]
    rfl
  · rw [run_handleFrame hrun]
    cases Wire.encode message with
    | ok reply => rfl
    | error error => rfl

theorem served_act (worker : Worker) (act : Act) :
    (worker.act act).2.served = worker.served + replied (worker.act act).1 := by
  cases act with
  | register graph => rfl
  | unregister checksum => rfl
  | setAvailable available => rfl
  | handleFrame frame session => exact served_handleFrame worker frame session

theorem served_actAll (worker : Worker) (acts : List Act) :
    (worker.actAll acts).2.served = worker.served + replied (worker.actAll acts).1 := by
  induction acts generalizing worker with
  | nil => rfl
  | cons act acts ih =>
    have hfirst := served_act worker act
    have hrest := ih (worker.act act).2
    change ((worker.act act).2.actAll acts).2.served
      = worker.served + replied ((worker.act act).1 ++ ((worker.act act).2.actAll acts).1)
    rw [replied_append]
    omega

/-- A reply has no frame exactly if it does not fit into one. -/
theorem isUnframed_handleFrame_iff (worker : Worker) (frame : Bytes) (session : Session Unit) :
    isUnframed ((worker.handleFrame frame).run session).1.1 = true
      ↔ ∃ message, ((worker.reply frame).run session).1 = some message ∧ ¬ message.Fits := by
  rcases hrun : (worker.reply frame).run session with ⟨_ | message, after⟩
  · rw [run_handleFrame_of_cancelled hrun]
    simp [isUnframed]
  · obtain ⟨hfits, hnot⟩ := run_handleFrame_of_fits hrun
    simp only [Option.some.injEq, exists_eq_left', isUnframed_iff]
    constructor
    · rintro ⟨error, herror⟩ fits
      obtain ⟨reply, hreply, -⟩ := hfits fits
      rw [hreply] at herror
      cases herror
    · exact hnot

/-- Whatever was done to a worker, it has counted the calls that gave a reply and, on top of them,
those whose reply could not be put into a frame. So the count is that of the replies unless there
were such calls; these are the calls with a reply that does not fit into a frame. -/
theorem served_counts_replied (editFallback : Bool) (acts : List Act) :
    let results := ((new editFallback).actAll acts).1
    let served := ((new editFallback).actAll acts).2.served
    served = results.countP (·.isOk) + results.countP isUnframed
      ∧ (served = results.countP (·.isOk)
        ↔ ∀ result ∈ results, ∀ error, result ≠ .error (.notEncodable error))
      ∧ ∀ (worker : Worker) (frame : Bytes) (session : Session Unit),
        (∃ error, ((worker.handleFrame frame).run session).1.1 = .error (.notEncodable error))
          ↔ ∃ message, ((worker.reply frame).run session).1 = some message ∧ ¬ message.Fits := by
  intro results served
  have hserved : served = results.countP (·.isOk) + results.countP isUnframed :=
    (served_actAll (new editFallback) acts).trans (Nat.zero_add _)
  refine ⟨hserved, ?_, fun worker frame session => ?_⟩
  · rw [hserved, Nat.add_eq_left, List.countP_eq_zero]
    refine forall₂_congr fun result _ => ?_
    rw [isUnframed_iff, not_exists]
  · rw [← isUnframed_iff]
    exact isUnframed_handleFrame_iff worker frame session

/-- A first call with a reply for which there is no frame. -/
theorem actAll_first_unframed {editFallback : Bool} {graph : ProjectGraph} {frame : Bytes}
    {session after : Session Unit} {message : Message} {error : WireError}
    (hreply : (((new editFallback).register graph).reply frame).run session = (some message, after))
    (herror : Wire.encode message = .error error) :
    (new editFallback).actAll [.register graph, .handleFrame frame session]
      = ([.error (.notEncodable error)],
        { (new editFallback).register graph with served := 1 }) := by
  have hcall := run_handleFrame hreply
  rw [herror] at hcall
  rw [actAll, actAll, actAll]
  simp only [act, hcall]
  rfl

/-- The one call so far asked for a method with more parameters than a frame may list. It gave no
reply, and was counted. -/
theorem served_without_reply :
    let method := { Declaration.ofName .methodDecl "M" with parameters := List.replicate 257 "T" }
    let project : Project := { info := ⟨⟨1⟩, "P", "P", "C#", [⟨⟨1⟩, "p.cs", [method]⟩], [], []⟩ }
    let solution : Solution := ⟨[project]⟩
    let request : FindRequest := ⟨solution.checksum, none, .exact "M", .all, .sourceOnly⟩
    let frame := (Wire.encode (.find request)).toOption.getD []
    let session : Session Unit := ⟨.empty 1 none, ⟨[], []⟩, ⟨false⟩, none, [], ()⟩
    let run := (new true).actAll [.register solution.graph, .handleFrame frame session]
    run.1 = [.error (.notEncodable (.limitExceeded ⟨.parameters, 257⟩))]
      ∧ run.1.countP (·.isOk) = 0 ∧ run.2.served = 1 := by
  intro method project solution request frame session run
  have hsent := Wire.encode_eq_getD (by decide +kernel :
    (Wire.encode (.find request)).isOk = true)
  have hsnapshot : ((new true).register solution.graph).snapshots.lookup request.checksum
      = some solution.graph := List.lookup_cons_self
  let message : Message :=
    .declarations [⟨⟨[⟨.methodDecl, "M", 0, List.replicate 257 "T"⟩], .source⟩, ⟨1⟩⟩]
  have htold : told ((Engine.search true solution.graph .solution (.named request.query)
      ⟨request.filter, request.scope⟩).run session).1 = some message := by decide +kernel
  have hreply : (((new true).register solution.graph).reply frame).run session
      = (some message, ((Engine.search true solution.graph .solution (.named request.query)
        ⟨request.filter, request.scope⟩).run session).2) := by
    rw [reply, Wire.decode_of_encode hsent, ← htold]
    exact run_findDeclarations_registered hsnapshot rfl
  have hencoded : Wire.encode message = .error (.limitExceeded ⟨.parameters, 257⟩) := by
    decide +kernel
  have hrun : run = _ := actAll_first_unframed hreply hencoded
  rw [hrun]
  exact ⟨rfl, rfl, rfl⟩

end Worker

end SymbolSearch
