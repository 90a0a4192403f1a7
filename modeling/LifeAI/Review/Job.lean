import LifeAI.Jobs.Handlers
import Mathlib.Data.List.Dedup

/-!
# The review of a corpus

`run_corpus_review_job`, with the part of `process_claimed_mainai_job` around it.

* `Corpus`                      the documents and the proposals about them;
* `alreadyReviewedDocumentIds`  what a run takes as done, and the count it goes on from;
* `Stage`                       where a run stands, one constructor for each transaction or read;
* `reviewJob`                   the handler.

The events of a job are not modelled.
-/

namespace LifeAI

/-- the documents of `input_refs` -/
def Job.documentIds (r : Job) : List Nat :=
  r.inputRefs.filterMap fun ref => if ref.type = .document then some ref.id else none

namespace Review

abbrev DocId := Nat

structure Document where
  uploadedBy : OwnerId
  /-- the texts of its chunks that belong to `uploaded_by`, in the order of `chunk_index` -/
  chunks : List String
  contentPreview : Option String
  deriving DecidableEq

structure Proposal where
  jobId : JobId
  ownerId : OwnerId
  sourceDocumentId : Option DocId
  proposalText : String
  /-- no column: the document that was reviewed, also when it is gone -/
  document : DocId
  deriving DecidableEq

/-- A row of `documents` has its id as position; a deleted one leaves its place empty. -/
structure Corpus where
  documents : List (Option Document) := []
  proposals : List Proposal := []
  deriving DecidableEq

def Corpus.document (w : Corpus) (d : DocId) : Option Document := w.documents[d]?.join

/-- `_document_review_text` -/
def documentReviewText (d : Document) : String :=
  let text := "\n\n".intercalate d.chunks
  let text := if text = "" then d.contentPreview.getD "" else text
  String.ofList (text.toList.take 8000)

/-- `_already_reviewed_document_ids`: a set, in which all the documents that are gone are one -/
def alreadyReviewedDocumentIds (w : Corpus) (j : JobId) : List (Option DocId) :=
  ((w.proposals.filter (·.jobId = j)).map (·.sourceDocumentId)).dedup

/-- the local variables of a run -/
structure Tally where
  total : Nat
  already : List (Option DocId)
  reviewed : Nat
  skippedDeleted : Nat := 0
  unavailable : Nat := 0
  providerFailed : Nat := 0
  deriving DecidableEq

/-- the snapshot at the start of a run -/
def Tally.start (w : Corpus) (j : JobId) (r : Job) : Tally :=
  let already := alreadyReviewedDocumentIds w j
  { total := r.documentIds.length, already, reviewed := already.length }

/-- the message of a run that got to its end -/
def publicMessage (n : Tally) : String :=
  let reviewed := n.reviewed
  let total := n.total
  let deleted := n.skippedDeleted
  let unavailable := n.unavailable
  let failed := n.providerFailed
  let skipped := deleted + unavailable + failed
  let details := ", ".intercalate
    ((if deleted = 0 then [] else [s!"{deleted} deleted"])
      ++ (if unavailable = 0 then [] else [s!"{unavailable} unavailable"])
      ++ (if failed = 0 then [] else [s!"{failed} failed"]))
  " ".intercalate
    ([s!"Reviewed {reviewed} of {total} document(s) (snapshot at job start)."]
      ++ (if skipped = 0 then [] else [s!"{skipped} not reviewed ({details})."]))

/-- what the providers return -/
structure Reply where
  content : String
  provider : String
  model : String
  deriving DecidableEq

/-- how `chat_with_fallback` ends -/
inductive Answer where
  | reply (r : Reply)
  | egressDenied
  | providerError
  | otherError
  deriving DecidableEq

inductive Stage where
  /-- `process_claimed_mainai_job` -/
  | claiming
  /-- the capability is gone -/
  | declining
  /-- the snapshot and the initial progress -/
  | starting
  /-- the head of the loop -/
  | reviewing (n : Tally) (rest : List DocId)
  | cancelling
  | renewing (n : Tally) (d : DocId) (rest : List DocId)
  | fetching (n : Tally) (d : DocId) (rest : List DocId)
  | asking (n : Tally) (d : DocId) (rest : List DocId)
  | skipping (n : Tally) (rest : List DocId)
  | recording (n : Tally) (d : DocId) (rest : List DocId) (reply : Reply)
  /-- after the loop -/
  | ending (n : Tally)
  /-- all the calls of the provider failed -/
  | unreviewed
  | completing (n : Tally)
  /-- after an exception -/
  | failing (e : Err)
  deriving DecidableEq

/-- what the surroundings answer -/
structure Env where
  capability : Bool := true
  leaseSeconds : Nat := 60
  answer : Answer := .otherError

/-- the proposal about a document -/
def proposal (r : Job) (j : JobId) (d : DocId) (reply : Reply) : Proposal where
  jobId := j
  ownerId := r.ownerId
  sourceDocumentId := some d
  proposalText := String.ofList (reply.content.toList.take 20000)
  document := d

/-- the next transaction of a run -/
def step (env : Env) (db : JobDb) (w : Corpus) (c : Claim) (st : Stage) :
    List Job × Corpus × Option Stage :=
  let write (x : Except Err (List Job)) (w' : Corpus) (next : Option Stage) :=
    fenced db.jobs w x w' next .failing
  let stay (next : Option Stage) := (db.jobs, w, next)
  match st with
  | .claiming =>
    write (recordClaimed db.jobs c.job c.worker c.generation) w
      (some (if env.capability then .starting else .declining))
  | .declining =>
    write (markFailed db.now db.jobs c.job c.worker c.generation .capabilityUnavailable) w none
  | .starting =>
    match db.jobs[c.job]? with
    | none => stay none
    | some r =>
      let n := Tally.start w c.job r
      write (updateProgress db.jobs c.job c.worker c.generation (some n.reviewed) (some n.total)
        (some "reviewing")) w (some (.reviewing n r.documentIds))
  | .reviewing n [] => stay (some (.ending n))
  | .reviewing n (d :: rest) =>
    if some d ∈ n.already then stay (some (.reviewing n rest))
    else match db.jobs[c.job]? with
      | none => stay none
      | some r => stay (some (if r.cancelRequested then .cancelling else .renewing n d rest))
  | .cancelling => write (markCancelled db.now db.jobs c.job c.worker c.generation) w none
  | .renewing n d rest =>
    write (renewMainaiJobLease db.now db.jobs c.job c.worker c.generation env.leaseSeconds) w
      (some (.fetching n d rest))
  | .fetching n d rest =>
    match w.document d with
    | none => stay (some (.skipping { n with skippedDeleted := n.skippedDeleted + 1 } rest))
    | some doc =>
      if documentReviewText doc = "" then
        stay (some (.skipping { n with unavailable := n.unavailable + 1 } rest))
      else stay (some (.asking n d rest))
  | .asking n d rest =>
    match env.answer with
    | .reply r => stay (some (.recording n d rest r))
    | .egressDenied | .providerError =>
      stay (some (.skipping { n with providerFailed := n.providerFailed + 1 } rest))
    | .otherError => stay (some (.failing .runtimeError))
  | .skipping n rest =>
    write (recordDocumentSkipped db.jobs c.job c.worker c.generation) w (some (.reviewing n rest))
  | .recording n d rest reply =>
    match db.jobs[c.job]?, w.document d with
    | none, _ => stay none
    -- the document was deleted meanwhile: `document.id` is loaded anew, and that raises
    | some _, none => stay (some (.failing .runtimeError))
    | some r, some _ =>
      -- the proposal and the progress are one transaction
      write (recordDocumentReviewed db.jobs c.job c.worker c.generation (n.reviewed + 1) n.total
          reply.provider reply.model w.proposals.length)
        { w with proposals := w.proposals ++ [proposal r c.job d reply] }
        (some (.reviewing { n with reviewed := n.reviewed + 1 } rest))
  | .ending n =>
    match db.jobs[c.job]? with
    | none => stay none
    | some r =>
      if r.status ≠ .running then stay none
      else stay (some (if n.reviewed = 0 ∧ 0 < n.providerFailed then .unreviewed else .completing n))
  | .unreviewed =>
    write (markFailed db.now db.jobs c.job c.worker c.generation .transientIo) w none
  | .completing n =>
    write (markCompleted db.now db.jobs c.job c.worker c.generation (some (publicMessage n))) w none
  | .failing _ =>
    -- the last resort: another exception, too, ends the run
    (transact db.jobs (markFailed db.now db.jobs c.job c.worker c.generation .unexpected), w, none)

/-- what others do to the documents -/
inductive Outside where
  | createDocument (d : Document)
  | editDocument (id : DocId) (d : Document)
  | deleteDocument (id : DocId)
  deriving DecidableEq

def outside (w : Corpus) : Outside → Corpus
  | .createDocument d => { w with documents := w.documents ++ [some d] }
  | .editDocument id d =>
    if (w.document id).isSome then { w with documents := w.documents.set id (some d) } else w
  | .deleteDocument id =>
    -- the foreign key is `ON DELETE SET NULL`
    { documents := w.documents.set id none
      proposals := w.proposals.map fun p =>
        if p.sourceDocumentId = some id then { p with sourceDocumentId := none } else p }

def reviewJob : Handler Corpus Stage Env Outside where
  jobType := .corpusReview
  start _ := .claiming
  step := step
  outside := outside

abbrev Op := HandlerOp Env Outside

def Op.exec (s : HandlerSys Corpus Stage) (o : Op) : HandlerSys Corpus Stage :=
  HandlerOp.exec reviewJob s o

end Review

end LifeAI
