import LibRustdesk.Framework.Keyed
import LibRustdesk.Framework.Table
import Mathlib.Data.Finset.Insert
import Mathlib.Data.List.TakeWhile

/-!
# Peers that were discovered on the LAN

`handle_received_peers` of `src/lan.rs`. The stored peers are taken offline, and every response of
the run replaces the entry of its peer, which is one by id and user name.

* `Merged` — what the stored list should be: one online entry for every peer that responded, with
  the latest answer for each address, and the others as they were, offline.
* `known` — what it is. The set of the peers that have responded holds ids only, and the addresses
  of the old entry are copied over the new one. So it is the *first* answer for an address that
  stays, and an entry from before the run counts as one where another user's came first.
* `merged_iff` — **the list is as it should be exactly where the two agree** (`Agreeing`).
-/

namespace LibRustdesk.LanPeers

structure DiscoveryPeer where
  id : String
  username : String
  hostname : String
  platform : String
  online : Bool
  ipMac : Table String String

namespace DiscoveryPeer

def isSamePeer (peer other : DiscoveryPeer) : Bool :=
  peer.id == other.id && peer.username == other.username

def key (peer : DiscoveryPeer) : String × String := (peer.id, peer.username)

def offline (peer : DiscoveryPeer) : DiscoveryPeer := { peer with online := false }

theorem isSamePeer_iff {peer other : DiscoveryPeer} :
    peer.isSamePeer other = true ↔ peer.key = other.key := by
  simp [isSamePeer, key]

end DiscoveryPeer

open DiscoveryPeer (key offline isSamePeer_iff)

/-- A `pong` and the address it came from. -/
structure Response where
  id : String
  username : String
  hostname : String
  platform : String
  ip : String
  mac : String

namespace Response

variable (r : Response)

/-- What `wait_response` sends of it. -/
def peer : DiscoveryPeer :=
  ⟨r.id, r.username, r.hostname, r.platform, true, Table.empty.insert r.ip r.mac⟩

def key : String × String := (r.id, r.username)

end Response

/-! ### The peers and the response set -/

def merge (inResponseSet : Bool) (peer peer1 : DiscoveryPeer) : DiscoveryPeer :=
  if inResponseSet then { peer with ipMac := peer.ipMac.extend peer1.ipMac, online := true }
  else peer

def receive (s : List DiscoveryPeer × Finset String) (r : Response) :
    List DiscoveryPeer × Finset String :=
  match s.1.find? (·.isSamePeer r.peer) with
  | some peer1 =>
    (merge (decide (r.id ∈ s.2)) r.peer peer1 :: s.1.eraseP (·.isSamePeer r.peer), insert r.id s.2)
  | none => (r.peer :: s.1, insert r.id s.2)

def received (stored : List DiscoveryPeer) (responses : List Response) :
    List DiscoveryPeer × Finset String := responses.foldl receive (stored.map offline, ∅)

def handleReceivedPeers (stored : List DiscoveryPeer) (responses : List Response) :
    List DiscoveryPeer := (received stored responses).1

/-! ### What it should be -/

def answers (responses : List Response) (k : String × String) (ip : String) : List String :=
  (responses.filter fun r => r.key = k ∧ r.ip = ip).map Response.mac

structure Merged (stored : List DiscoveryPeer) (responses : List Response)
    (peers : List DiscoveryPeer) : Prop where
  distinct : Keyed.Distinct key peers
  responded : ∀ r ∈ responses, ∃ peer ∈ peers, key peer = r.key ∧ peer.online = true ∧
    peer.ipMac = fun ip => (answers responses r.key ip).getLast?
  others : ∀ peer ∈ stored, (∀ r ∈ responses, r.key ≠ key peer) → offline peer ∈ peers

/-- The entry from before the run, where its id had responded before the peer did. -/
def stale (stored : List DiscoveryPeer) (responses : List Response) (k : String × String) :
    Table String String :=
  if (responses.takeWhile fun r => r.key ≠ k).any fun r => r.id = k.1 then
    (Keyed.item? key k stored).elim Table.empty DiscoveryPeer.ipMac
  else Table.empty

/-- What the run leaves of the addresses of a peer that responded. -/
def known (stored : List DiscoveryPeer) (responses : List Response) (k : String × String) :
    Table String String :=
  fun ip => (stale stored responses k ip).or (answers responses k ip).head?

/-- The first answer for an address is the last one, and it is what a stale entry says. -/
def Agreeing (stored : List DiscoveryPeer) (responses : List Response) : Prop :=
  ∀ r ∈ responses, ∀ ip,
    (stale stored responses r.key ip = none →
      (answers responses r.key ip).head? = (answers responses r.key ip).getLast?) ∧
    ∀ mac, stale stored responses r.key ip = some mac →
      (answers responses r.key ip).getLast? = some mac

/-! ### One response -/

section Receive

variable {stored : List DiscoveryPeer} {rs : List Response} {r : Response} {k : String × String}

theorem answers_concat (ip : String) :
    answers (rs ++ [r]) k ip = answers rs k ip ++ answers [r] k ip := by
  unfold answers
  rw [List.filter_append, List.map_append]

theorem answers_of_ne (h : ∀ r ∈ rs, r.key ≠ k) (ip : String) : answers rs k ip = [] := by
  unfold answers
  rw [List.filter_eq_nil_iff.mpr fun r hr => by simp [h r hr], List.map_nil]

theorem answers_self (ip : String) : (answers [r] r.key ip).head? = r.peer.ipMac ip := by
  show _ = Table.empty.insert r.ip r.mac ip
  unfold answers
  rw [Table.insert_apply]
  by_cases hip : ip = r.ip
  · simp [hip]
  · simp [hip, Ne.symm hip]

theorem stale_concat (h : ∃ r ∈ rs, r.key = k) :
    stale stored (rs ++ [r]) k = stale stored rs k := by
  obtain ⟨first, hmem, hkey⟩ := h
  have hlt : (rs.takeWhile fun r => r.key ≠ k).length ≠ rs.length := by
    intro heq
    have hall := List.takeWhile_eq_self_iff.mp
      ((List.takeWhile_prefix _).eq_of_length heq) first hmem
    exact absurd hkey (of_decide_eq_true hall)
  unfold stale
  rw [List.takeWhile_append, if_neg hlt]

theorem known_concat_of_ne (h : ∃ r ∈ rs, r.key = k) (hne : r.key ≠ k) :
    known stored (rs ++ [r]) k = known stored rs k := by
  funext ip
  unfold known
  rw [stale_concat h, answers_concat, answers_of_ne (List.forall_mem_singleton.mpr hne),
    List.append_nil]

theorem known_concat (h : ∃ r' ∈ rs, r'.key = r.key) :
    known stored (rs ++ [r]) r.key = r.peer.ipMac.extend (known stored rs r.key) := by
  funext ip
  unfold known
  rw [Table.extend_apply, stale_concat h, answers_concat, List.head?_append, answers_self,
    Option.or_assoc]

theorem known_first (h : ∀ r' ∈ rs, r'.key ≠ r.key) :
    known stored (rs ++ [r]) r.key =
      r.peer.ipMac.extend (if rs.any fun r' => r'.id = r.id then
        (Keyed.item? key r.key stored).elim Table.empty DiscoveryPeer.ipMac else Table.empty) := by
  have htake : (rs ++ [r]).takeWhile (fun r' => r'.key ≠ r.key) = rs := by
    rw [List.takeWhile_append_of_pos fun r' hr' => decide_eq_true (h r' hr')]
    simp
  funext ip
  unfold known stale
  rw [Table.extend_apply, htake, answers_concat, answers_of_ne h, List.nil_append, answers_self]
  rfl

theorem find?_isSamePeer (peers : List DiscoveryPeer) :
    peers.find? (·.isSamePeer r.peer) = Keyed.item? key r.key peers := by
  unfold Keyed.item?
  refine List.find?_congr fun peer _ => ?_
  rw [Bool.eq_iff_iff, isSamePeer_iff]
  simp only [beq_iff_eq]
  rfl

theorem eraseP_cons (first : DiscoveryPeer) (peers : List DiscoveryPeer) :
    (first :: peers).eraseP (·.isSamePeer r.peer) =
      if key first = r.key then peers else first :: peers.eraseP (·.isSamePeer r.peer) := by
  rw [List.eraseP_cons]
  split
  · next hkey => rw [isSamePeer_iff.mpr (show key first = key r.peer from hkey), cond_true]
  · next hne => rw [Bool.eq_false_iff.mpr (mt isSamePeer_iff.mp hne), cond_false]

theorem item?_eraseP {peers : List DiscoveryPeer} (h : Keyed.Distinct key peers) (hne : k ≠ r.key) :
    Keyed.item? key k (peers.eraseP (·.isSamePeer r.peer)) = Keyed.item? key k peers := by
  induction peers with
  | nil => rfl
  | cons peer peers ih =>
    obtain ⟨-, hrest⟩ := Keyed.distinct_cons.mp h
    by_cases hkey : key peer = r.key
    · rw [eraseP_cons, if_pos hkey, Keyed.item?_cons,
        if_neg fun heq => hne (heq.symm.trans hkey)]
    · rw [eraseP_cons, if_neg hkey, Keyed.item?_cons, Keyed.item?_cons,
        ih hrest]

theorem key_ne_of_mem_eraseP {peers : List DiscoveryPeer} (h : Keyed.Distinct key peers)
    {peer : DiscoveryPeer} (hmem : peer ∈ peers.eraseP (·.isSamePeer r.peer)) :
    key peer ≠ r.key := by
  induction peers with
  | nil => cases hmem
  | cons first peers ih =>
    obtain ⟨hfirst, hrest⟩ := Keyed.distinct_cons.mp h
    by_cases hkey : key first = r.key
    · rw [eraseP_cons, if_pos hkey] at hmem
      exact hkey ▸ hfirst peer hmem
    · rw [eraseP_cons, if_neg hkey] at hmem
      rcases List.mem_cons.mp hmem with rfl | hmem
      · exact hkey
      · exact ih hrest hmem

def entry (s : List DiscoveryPeer × Finset String) (r : Response) : DiscoveryPeer :=
  (Keyed.item? key r.key s.1).elim r.peer (merge (decide (r.id ∈ s.2)) r.peer)

theorem key_entry (s : List DiscoveryPeer × Finset String) : key (entry s r) = r.key := by
  unfold entry merge
  cases Keyed.item? key r.key s.1 with
  | none => rfl
  | some peer1 =>
    show key (if _ then _ else _) = _
    split <;> rfl

theorem receive_spec {s : List DiscoveryPeer × Finset String} (h : Keyed.Distinct key s.1) :
    Keyed.Distinct key (receive s r).1 ∧ (receive s r).2 = insert r.id s.2 ∧
      ∀ k, Keyed.item? key k (receive s r).1 =
        if r.key = k then some (entry s r) else Keyed.item? key k s.1 := by
  have hentry := key_entry (r := r) s
  unfold receive
  rw [find?_isSamePeer]
  unfold entry at hentry ⊢
  cases hitem : Keyed.item? key r.key s.1 with
  | none =>
    rw [hitem] at hentry
    refine ⟨Keyed.distinct_cons.mpr ⟨Keyed.item?_eq_none.mp hitem, h⟩, rfl, fun k => ?_⟩
    rw [Keyed.item?_cons]
    rfl
  | some peer1 =>
    rw [hitem] at hentry
    refine ⟨Keyed.distinct_cons.mpr ⟨fun peer hmem => ?_, ?_⟩, rfl, fun k => ?_⟩
    · exact fun heq => key_ne_of_mem_eraseP h hmem (heq.trans hentry)
    · exact h.sublist ((List.eraseP_sublist).map _)
    · rw [Keyed.item?_cons]
      change (if key (merge _ _ peer1) = k then _ else _) = _
      rw [show key (merge _ _ peer1) = r.key from hentry]
      split
      · rfl
      · next hne => exact item?_eraseP h (Ne.symm hne)

end Receive

/-! ### All responses -/

structure Received (stored : List DiscoveryPeer) (rs : List Response)
    (s : List DiscoveryPeer × Finset String) : Prop where
  distinct : Keyed.Distinct key s.1
  seen : ∀ id, id ∈ s.2 ↔ ∃ r ∈ rs, r.id = id
  others : ∀ k, (∀ r ∈ rs, r.key ≠ k) →
    Keyed.item? key k s.1 = (Keyed.item? key k stored).map offline
  responded : ∀ k, (∃ r ∈ rs, r.key = k) → ∃ peer, Keyed.item? key k s.1 = some peer ∧
    peer.online = true ∧ peer.ipMac = known stored rs k

section Run

variable {stored : List DiscoveryPeer} {rs : List Response}

theorem item?_offline (k : String × String) :
    Keyed.item? key k (stored.map offline) = (Keyed.item? key k stored).map offline := by
  unfold Keyed.item?
  rw [List.find?_map]
  rfl

variable {s : List DiscoveryPeer × Finset String}

theorem Received.entry (h : Received stored rs s)
    (r : Response) : (entry s r).online = true ∧
      (entry s r).ipMac = known stored (rs ++ [r]) r.key := by
  unfold LanPeers.entry
  by_cases hbefore : ∃ r' ∈ rs, r'.key = r.key
  · obtain ⟨peer, hitem, -, hknown⟩ := h.responded r.key hbefore
    have hseen : r.id ∈ s.2 := by
      obtain ⟨r', hmem, hkey⟩ := hbefore
      exact (h.seen r.id).mpr ⟨r', hmem, congrArg Prod.fst hkey⟩
    rw [hitem, Option.elim_some, decide_eq_true hseen, known_concat hbefore, ← hknown]
    exact ⟨rfl, rfl⟩
  · have hnone : ∀ r' ∈ rs, r'.key ≠ r.key := fun r' hmem hkey => hbefore ⟨r', hmem, hkey⟩
    rw [h.others r.key hnone, known_first hnone]
    have hany : (rs.any fun r' => r'.id = r.id) = decide (r.id ∈ s.2) := by
      rw [Bool.eq_iff_iff, List.any_eq_true, decide_eq_true_eq, h.seen r.id]
      simp only [decide_eq_true_eq]
    rw [hany]
    cases Keyed.item? key r.key stored with
    | none =>
      refine ⟨rfl, funext fun ip => ?_⟩
      split <;> rfl
    | some peer =>
      show (merge (decide (r.id ∈ s.2)) r.peer (offline peer)).online = true ∧
        (merge (decide (r.id ∈ s.2)) r.peer (offline peer)).ipMac = _
      by_cases hseen : r.id ∈ s.2
      · rw [decide_eq_true hseen]
        exact ⟨rfl, rfl⟩
      · rw [decide_eq_false hseen]
        exact ⟨rfl, rfl⟩

theorem Received.step (h : Received stored rs s)
    (r : Response) : Received stored (rs ++ [r]) (receive s r) := by
  obtain ⟨hdistinct, hset, hitem⟩ := receive_spec (r := r) h.distinct
  refine ⟨hdistinct, fun id => ?_, fun k hk => ?_, fun k hk => ?_⟩
  · rw [hset, Finset.mem_insert, h.seen id]
    simp only [List.mem_append, List.mem_singleton, or_and_right, exists_or, exists_eq_left]
    exact or_comm.trans (or_congr_right eq_comm)
  · obtain ⟨hrs, hr⟩ := List.forall_mem_append.mp hk
    rw [hitem, if_neg (hr r List.mem_cons_self)]
    exact h.others k hrs
  · rw [hitem]
    by_cases hkey : r.key = k
    · subst hkey
      exact ⟨_, if_pos rfl, h.entry r⟩
    · have hbefore : ∃ r' ∈ rs, r'.key = k := by
        obtain ⟨r', hmem, hr'⟩ := hk
        rcases List.mem_append.mp hmem with hmem | hmem
        · exact ⟨r', hmem, hr'⟩
        · exact absurd (List.mem_singleton.mp hmem ▸ hr') hkey
      rw [if_neg hkey, known_concat_of_ne hbefore hkey]
      exact h.responded k hbefore

theorem received_spec (hstored : Keyed.Distinct key stored) (rs : List Response) :
    Received stored rs (received stored rs) := by
  induction rs using List.reverseRecOn with
  | nil =>
    refine ⟨hstored.map fun _ => rfl, fun id => ?_, fun k _ => item?_offline k, fun k hk => ?_⟩
    · exact iff_of_false (Finset.notMem_empty id) (by simp)
    · obtain ⟨r, hmem, -⟩ := hk
      cases hmem
  | append_singleton rs r ih =>
    unfold received at ih ⊢
    rw [List.foldl_append]
    exact ih.step r

theorem agreeing_iff : Agreeing stored rs ↔
    ∀ r ∈ rs, known stored rs r.key = fun ip => (answers rs r.key ip).getLast? := by
  refine forall₂_congr fun r _ => ?_
  rw [funext_iff]
  refine forall_congr' fun ip => ?_
  unfold known
  cases stale stored rs r.key ip with
  | none => simp
  | some mac =>
    rw [Option.some_or]
    exact ⟨fun h => (h.2 mac rfl).symm, fun h => ⟨nofun, fun _ heq => heq ▸ h.symm⟩⟩

/-- **The stored list** is as it should be exactly where the first answers, or the entries they were
merged with, agree with the last ones. -/
theorem merged_iff (hstored : Keyed.Distinct key stored) :
    Merged stored rs (handleReceivedPeers stored rs) ↔ Agreeing stored rs := by
  have hspec := received_spec hstored rs
  rw [agreeing_iff]
  constructor
  · intro h r hr
    obtain ⟨peer, hmem, hkey, -, hipMac⟩ := h.responded r hr
    obtain ⟨peer', hitem, -, hknown⟩ := hspec.responded r.key ⟨r, hr, rfl⟩
    -- the list has one entry of the peer
    have heq : some peer = some peer' := by
      rw [← hitem, ← hkey]
      exact (Keyed.item?_of_mem hspec.distinct hmem).symm
    rw [← hknown, ← Option.some.inj heq, hipMac]
  · intro h
    refine ⟨hspec.distinct, fun r hr => ?_, fun peer hpeer hnone => ?_⟩
    · obtain ⟨peer, hitem, honline, hknown⟩ := hspec.responded r.key ⟨r, hr, rfl⟩
      obtain ⟨hmem, hkey⟩ := Keyed.mem_of_item? hitem
      exact ⟨peer, hmem, hkey, honline, hknown.trans (h r hr)⟩
    · have hitem := hspec.others (key peer) hnone
      rw [Keyed.item?_of_mem hstored hpeer] at hitem
      exact (Keyed.mem_of_item? hitem).1

end Run

/-- A peer that was stored answers once, at a new address. -/
theorem merged_stored : Merged [⟨"1", "u", "", "", true, Table.empty.insert "10.0.0.1" "aa"⟩]
    [⟨"1", "u", "", "", "10.0.0.2", "aa"⟩]
    (handleReceivedPeers [⟨"1", "u", "", "", true, Table.empty.insert "10.0.0.1" "aa"⟩]
      [⟨"1", "u", "", "", "10.0.0.2", "aa"⟩]) := by
  refine (merged_iff ?_).mpr fun r hr ip => ?_
  · exact List.nodup_singleton _
  · obtain rfl := List.mem_singleton.mp hr
    by_cases hip : ip = "10.0.0.2" <;> simp [stale, answers, Response.key, hip, eq_comm]

/-- A peer answers twice at one address, and the first answer stays. -/
theorem keeps_first : ¬ Merged [] [⟨"1", "u", "", "", "10.0.0.1", "aa"⟩,
    ⟨"1", "u", "", "", "10.0.0.1", "bb"⟩] (handleReceivedPeers []
      [⟨"1", "u", "", "", "10.0.0.1", "aa"⟩, ⟨"1", "u", "", "", "10.0.0.1", "bb"⟩]) := by
  intro h
  obtain ⟨peer, hmem, -, -, hipMac⟩ := h.responded _ List.mem_cons_self
  obtain rfl := List.mem_singleton.mp hmem
  exact absurd (congrFun hipMac "10.0.0.1") (by decide +kernel)

end LibRustdesk.LanPeers
