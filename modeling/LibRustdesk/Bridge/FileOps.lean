import LibRustdesk.Bridge.Events
import LibRustdesk.Client.FileJobs

/-!
# The ids of the bridge's file operations

`session_create_dir`, `delete_remote_path` and `session_send_files` of
`rustdesk-master/src/harmony_bridge/core.rs` draw the id of their job from the clock: the
milliseconds since the epoch, without all but the lowest 31 bits. The other front ends count
(`get_next_job_id` in `fs.rs`).

* `FileOp` — the three operations, with what each sends to its session.
* `session` — a session for files from its start: the operations, the requests on their way to the
  client's loop, the answers of the peer and what the user does about a job, in any order.
* `separate_iff` — **no message is handed to a job of another operation** and no two operations have
  one id, exactly when no two readings of the clock agree in these 31 bits.
* `same_millisecond` — two operations within one millisecond.
-/

namespace LibRustdesk.Bridge

open FileTransfer (Path Disk FileTransferSendConfirmRequest CancelEnv)
open Desktop (TickEnv)
open Client (Data Remote UiEnv ClientOut)
open Client.Remote (PeerEnv FileResponse)

/-! ### The operations -/

/-- The clock at the call; `none` is before the epoch. -/
def nextBridgeJobId (now : Option ℕ) : Int32 := (currentTimestampMillis now &&& 0x7fffffff).toInt32

inductive FileOp
  | createDir (path : Path)
  | delete (path : Path) (isDirectory : Bool)
  | sendFiles (path dest : Path) (isRemote : Bool)

/-- `session_create_dir`; `session` tells whether there is one. -/
def sessionCreateDir (session : Bool) (path : Path) (now : Option ℕ) : Option Data :=
  let normalized := trim path
  if normalized = [] then none
  else if session then some (.createDir (nextBridgeJobId now) normalized true)
  else none

def deleteRemotePath (session : Bool) (path : Path) (isDirectory : Bool) (now : Option ℕ) :
    Option Data :=
  let normalized := trim path
  if normalized = [] then none
  else if session then
    let jobId := nextBridgeJobId now
    if isDirectory then some (.removeDirAll jobId normalized true false)
    else some (.removeFile jobId normalized 0 true)
  else none

def sessionSendFiles (session : Bool) (path dest : Path) (isRemote : Bool) (now : Option ℕ) :
    Option Data :=
  let normalizedPath := trim path
  let normalizedTo := trim dest
  if normalizedPath = [] ∨ normalizedTo = [] then none
  else if session then
    some (.sendFiles (nextBridgeJobId now) .generic normalizedPath normalizedTo 1 false isRemote)
  else none

def FileOp.data (now : Option ℕ) : FileOp → Option Data
  | createDir path => sessionCreateDir true path now
  | delete path isDirectory => deleteRemotePath true path isDirectory now
  | sendFiles path dest isRemote => sessionSendFiles true path dest isRemote now

theorem FileOp.data_id {op : FileOp} {now : Option ℕ} {data : Data} (h : op.data now = some data) :
    data.id = nextBridgeJobId now := by
  cases op with
  | createDir path =>
    dsimp only [FileOp.data, sessionCreateDir] at h
    split at h
    · cases h
    · rw [if_pos rfl] at h
      rw [← Option.some.inj h]
      rfl
  | delete path isDirectory =>
    dsimp only [FileOp.data, deleteRemotePath] at h
    split at h
    · cases h
    · rw [if_pos rfl] at h
      split at h <;> rw [← Option.some.inj h] <;> rfl
  | sendFiles path dest isRemote =>
    dsimp only [FileOp.data, sessionSendFiles] at h
    split at h
    · cases h
    · rw [if_pos rfl] at h
      rw [← Option.some.inj h]
      rfl

/-! ### The ids -/

theorem nextBridgeJobId_toInt (now : Option ℕ) :
    (nextBridgeJobId now).toInt = (now.getD 0 % 2147483648 : ℕ) := by
  have hclock : currentTimestampMillis now = Int64.ofNat (now.getD 0) := by
    cases now <;> rfl
  have hbits : (currentTimestampMillis now &&& 0x7fffffff).toBitVec.toNat =
      now.getD 0 % 2147483648 := by
    have hmask : (0x7fffffff : Int64).toBitVec.toNat = 2 ^ 31 - 1 := by decide
    rw [hclock, Int64.toBitVec_and, BitVec.toNat_and, hmask, Nat.and_two_pow_sub_one_eq_mod]
    change (BitVec.ofNat 64 (now.getD 0)).toNat % 2 ^ 31 = _
    rw [BitVec.toNat_ofNat, Nat.mod_mod_of_dvd _ (by decide)]
  have hlt : now.getD 0 % 2147483648 < 2147483648 := Nat.mod_lt _ (by decide)
  have hint : (currentTimestampMillis now &&& 0x7fffffff).toInt =
      (now.getD 0 % 2147483648 : ℕ) := by
    rw [← hbits]
    refine BitVec.toInt_eq_toNat_of_lt ?_
    rw [hbits]
    omega
  unfold nextBridgeJobId
  rw [Int64.toInt_toInt32, hint]
  exact Int.bmod_eq_of_le (by omega) (by omega)

theorem nextBridgeJobId_eq_iff {a b : Option ℕ} : nextBridgeJobId a = nextBridgeJobId b ↔
    a.getD 0 % 2147483648 = b.getD 0 % 2147483648 := by
  rw [← Int32.toInt_inj, nextBridgeJobId_toInt, nextBridgeJobId_toInt]
  exact Int.natCast_inj

/-! ### A session for files -/

/-- A session: the jobs of its client, the requests that the client has yet to take, each with the
number of its operation, and the ids that were drawn, in order. -/
structure Session where
  remote : Remote
  queue : List (ℕ × Data)
  ids : List Int32

inductive SessionEvent
  /-- The application calls the bridge. -/
  | call (op : FileOp) (now : Option ℕ)
  /-- The client takes the next request. -/
  | takeRequest (env : UiEnv)
  | fileResponse (env : PeerEnv) (m : FileResponse)
  | sendConfirm (env : PeerEnv) (c : FileTransferSendConfirmRequest)
  | setConfirmOverrideFile (env : PeerEnv) (id fileNum : Int32) (needOverride isUpload : Bool)
  | cancelJob (env : CancelEnv) (id : Int32)
  | timer (env : TickEnv)

def SessionEvent.about : SessionEvent → Option Int32
  | fileResponse _ m => some m.id
  | sendConfirm _ c => some c.id
  | setConfirmOverrideFile _ id _ _ _ => some id
  | cancelJob _ id => some id
  | call _ _ | takeRequest _ | timer _ => none

def SessionEvent.draws : SessionEvent → Option (Option ℕ)
  | call op now => (op.data now).map fun _ => now
  | _ => none

/-- The readings of the clock that ids are drawn with. -/
def drawn (evs : List SessionEvent) : List (Option ℕ) := evs.filterMap SessionEvent.draws

namespace Session

def start (disk : Disk) : Session := ⟨.start disk, [], []⟩

def step (z : Zstd) (s : Session) : SessionEvent → Session × List ClientOut
  | .call op now =>
    match op.data now with
    | some data =>
      ({ s with queue := s.queue ++ [(s.ids.length, data)], ids := s.ids ++ [data.id] }, [])
    | none => (s, [])
  | .takeRequest env =>
    match s.queue with
    | [] => (s, [])
    | (op, data) :: queue =>
      let (remote, outs) := s.remote.handleMsgFromUi env op data
      ({ s with remote := remote, queue := queue }, outs)
  | .fileResponse env m =>
    let (remote, outs) := s.remote.onFileResponse env m
    ({ s with remote := remote }, outs)
  | .sendConfirm env c =>
    let (remote, outs) := s.remote.onSendConfirm env c
    ({ s with remote := remote }, outs)
  | .setConfirmOverrideFile env id fileNum needOverride isUpload =>
    let (remote, outs) := s.remote.setConfirmOverrideFile env id fileNum needOverride isUpload
    ({ s with remote := remote }, outs)
  | .cancelJob env id =>
    let (remote, outs) := s.remote.cancelTransferJob env id
    ({ s with remote := remote }, outs)
  | .timer env =>
    let (remote, outs) := s.remote.onTimer z env
    ({ s with remote := remote }, outs)

end Session

/-- A client that has panicked does nothing more, while the bridge can still be called. -/
def session (z : Zstd) : Machine Session SessionEvent ClientOut where
  step s ev := if s.remote.running || ev.draws.isSome then s.step z ev else (s, [])

namespace Session

/-- A message about the id of an operation is handed to no job of another one. -/
def OwnJobs (z : Zstd) (s : Session) (ev : SessionEvent) : Prop :=
  ∀ id ∈ ev.about, ∀ op, s.ids[op]? = some id →
    ∀ origin, .used origin ∈ (session z).out s ev → origin = some op

/-- Every job, and every request, has the id of its operation. -/
structure Inv (s : Session) : Prop where
  jobs : Client.Owned s.ids s.remote
  queue : ∀ q ∈ s.queue, s.ids[q.1]? = some q.2.id

variable {z : Zstd}

theorem inv_start (disk : Disk) : Inv (start disk) where
  jobs := ⟨fun _ hjob => absurd hjob List.not_mem_nil, fun _ hjob => absurd hjob List.not_mem_nil,
    fun _ _ hjob => nomatch hjob⟩
  queue _ hq := absurd hq List.not_mem_nil

theorem step_inv {s : Session} (h : Inv s) (ev : SessionEvent) :
    Inv (s.step z ev).1 ∧ ∀ id ∈ ev.about, Client.HandsTo s.ids id (s.step z ev).2 := by
  cases ev with
  | call op now =>
    refine ⟨?_, fun id hid => nomatch hid⟩
    unfold step
    dsimp only
    split
    · next data hdata =>
      refine ⟨Remote.owned_mono h.jobs data.id, List.forall_mem_append.mpr ⟨fun q hq => ?_, ?_⟩⟩
      · exact getElem?_of_prefix (List.prefix_append _ _) (h.queue q hq)
      · exact List.forall_mem_singleton.mpr List.getElem?_concat_length
    · exact h
  | takeRequest env =>
    refine ⟨?_, fun id hid => nomatch hid⟩
    unfold step
    dsimp only
    split
    · exact h
    · next op data queue hqueue =>
      have hall := h.queue
      rw [hqueue] at hall
      obtain ⟨hid, hrest⟩ := List.forall_mem_cons.mp hall
      exact ⟨Remote.handleMsgFromUi_owned env h.jobs ⟨op, rfl, hid⟩, hrest⟩
  | fileResponse env m =>
    obtain ⟨hjobs, hhands⟩ := Remote.onFileResponse_serves env h.jobs m
    exact ⟨⟨hjobs, h.queue⟩, fun id hid => Option.some.inj hid ▸ hhands⟩
  | sendConfirm env c =>
    obtain ⟨hjobs, hhands⟩ := Remote.onSendConfirm_serves env h.jobs c
    exact ⟨⟨hjobs, h.queue⟩, fun id hid => Option.some.inj hid ▸ hhands⟩
  | setConfirmOverrideFile env id fileNum needOverride isUpload =>
    obtain ⟨hjobs, hhands⟩ :=
      Remote.setConfirmOverrideFile_serves env h.jobs id fileNum needOverride isUpload
    exact ⟨⟨hjobs, h.queue⟩, fun id hid => Option.some.inj hid ▸ hhands⟩
  | cancelJob env id =>
    obtain ⟨hjobs, hhands⟩ := Remote.cancelTransferJob_serves id env h.jobs
    exact ⟨⟨hjobs, h.queue⟩, fun id hid => Option.some.inj hid ▸ hhands⟩
  | timer env =>
    refine ⟨⟨Remote.onTimer_owned z env h.jobs, h.queue⟩, fun id hid => nomatch hid⟩

variable (s : Session) (ev : SessionEvent)

theorem inv_next (h : Inv s) : Inv ((session z).next s ev) := by
  change Inv ((session z).step s ev).1
  dsimp only [session]
  split
  · exact (step_inv h ev).1
  · exact h

theorem ids_step : (s.step z ev).1.ids = s.ids ++ (ev.draws.map nextBridgeJobId).toList := by
  cases ev with
  | call op now =>
    unfold step
    dsimp only [SessionEvent.draws]
    cases hdata : op.data now with
    | none => exact (List.append_nil _).symm
    | some data =>
      dsimp only [Option.map, Option.toList]
      rw [FileOp.data_id hdata]
  | takeRequest env =>
    refine Eq.trans ?_ (List.append_nil _).symm
    unfold step
    dsimp only
    split <;> rfl
  | fileResponse | sendConfirm | setConfirmOverrideFile | cancelJob | timer =>
    exact (List.append_nil _).symm

theorem ids_next :
    ((session z).next s ev).ids = s.ids ++ (ev.draws.map nextBridgeJobId).toList := by
  change ((session z).step s ev).1.ids = _
  dsimp only [session]
  split
  · exact ids_step s ev
  · next hstopped =>
    cases hdraws : ev.draws with
    | none => exact (List.append_nil _).symm
    | some now =>
      rw [hdraws] at hstopped
      exact absurd (Bool.or_true _) hstopped

theorem ids_run (evs : List SessionEvent) :
    ((session z).run s evs).ids = s.ids ++ (drawn evs).map nextBridgeJobId := by
  induction evs generalizing s with
  | nil => exact (List.append_nil _).symm
  | cons ev evs ih =>
    rw [Machine.run_cons, ih, ids_next, List.append_assoc]
    unfold drawn
    rw [List.filterMap_cons]
    cases ev.draws <;> rfl

theorem ownJobs_of_nodup {s : Session} (h : Inv s) (hnodup : s.ids.Nodup) (ev : SessionEvent) :
    OwnJobs z s ev := by
  intro id hid op hop origin hused
  have hhands : Client.HandsTo s.ids id ((session z).out s ev) := by
    change Client.HandsTo s.ids id ((session z).step s ev).2
    dsimp only [session]
    split
    · exact (step_inv h ev).2 id hid
    · exact Client.handsTo_nil
  obtain ⟨op', horigin, hop'⟩ := hhands origin hused
  have hlt : op < s.ids.length := (List.getElem?_eq_some_iff.mp hop).1
  rw [horigin, (List.getElem?_inj hlt hnodup).mp (hop.trans hop'.symm)]

end Session

/-- **The operations have ids of their own**, and no message is handed to a job of another one,
exactly when no two readings of the clock agree in their lowest 31 bits. -/
theorem separate_iff (z : Zstd) (disk : Disk) (evs : List SessionEvent) :
    ((session z).run (.start disk) evs).ids.Nodup ∧
        (session z).Meets (Session.OwnJobs z) (.start disk) evs ↔
      (drawn evs).Pairwise fun a b => a.getD 0 % 2147483648 ≠ b.getD 0 % 2147483648 := by
  have hids (evs : List SessionEvent) : ((session z).run (.start disk) evs).ids.Nodup ↔
      (drawn evs).Pairwise fun a b => a.getD 0 % 2147483648 ≠ b.getD 0 % 2147483648 := by
    rw [Session.ids_run, List.nodup_iff_pairwise_ne]
    change ((drawn evs).map nextBridgeJobId).Pairwise (· ≠ ·) ↔ _
    rw [List.pairwise_map]
    exact List.Pairwise.iff fun a b => not_congr nextBridgeJobId_eq_iff
  rw [← hids evs]
  refine ⟨And.left, fun hnodup => ⟨hnodup, fun p hp => ?_⟩⟩
  obtain ⟨pre, post, rfl, hpre⟩ := (session z).exists_split_of_mem_trace hp
  -- the ids before a step are some of those at the end
  have hprefix : ((session z).run (.start disk) pre).ids.Nodup := by
    rw [Machine.run_append, Session.ids_run] at hnodup
    exact hnodup.of_append_left
  have hinv := (session z).inv_run (Session.inv_start disk) Session.inv_next pre
  rw [← hpre]
  exact Session.ownJobs_of_nodup hinv hprefix p.2

/-- Two downloads are asked for within a millisecond. The peer is done with the second one. -/
def twoDownloads : List SessionEvent :=
  [.call (.sendFiles "/a".toList "/x".toList true) (some 5),
    .call (.sendFiles "/b".toList "/y".toList true) (some 5),
    .takeRequest ⟨.ok [], true, .ok ()⟩, .takeRequest ⟨.ok [], true, .ok ()⟩,
    .fileResponse ⟨Zstd.storing, .good, .good, ⟨.ok (), true, true⟩, .good, .good, fun _ => .ok (),
      none, true⟩ (.done 5 0)]

/-- Both have one id, and the job of the first one is taken for done. -/
theorem same_millisecond :
    ((session Zstd.storing).run (.start FileSystem.empty) twoDownloads).ids = [5, 5] ∧
      ¬ (session Zstd.storing).Meets (Session.OwnJobs Zstd.storing) (.start FileSystem.empty)
        twoDownloads := by
  refine ⟨by decide +kernel, fun hmeets => ?_⟩
  have hown := hmeets ((session Zstd.storing).run (.start FileSystem.empty) (twoDownloads.take 4),
    _) ((session Zstd.storing).mem_trace_split _ (twoDownloads.take 4) _ [])
  have hop := hown 5 rfl 1 (by decide +kernel) (some 0) (List.mem_cons_self)
  exact absurd hop (by decide)

end LibRustdesk.Bridge
