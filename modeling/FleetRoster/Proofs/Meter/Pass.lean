/-
One metering pass, seen from a single server. Whatever order the servers come in, a pass makes at
most one record for each, and none for any other. Once the records are accepted the meter stands at
the counters of exactly the servers there are; if they are refused, it keeps what it knew of these
servers.
-/
import FleetRoster.Meter
import FleetRoster.Proofs.Contents.Rows

namespace FleetRoster

open Std (ExtTreeMap)

/-! ## What a counter has counted -/

theorem toNat_counted (base current : UInt64) :
    (counted base current).toNat =
      if base.toNat ≤ current.toNat then current.toNat - base.toNat else current.toNat := by
  unfold counted
  simp only [UInt64.le_iff_toNat_le]
  split
  · rename_i hle; exact UInt64.toNat_sub_of_le _ _ (UInt64.le_iff_toNat_le.2 hle)
  · rfl

theorem toNat_counted_of_le {base current : UInt64} (h : base ≤ current) :
    base.toNat + (counted base current).toNat = current.toNat := by
  have hle := UInt64.le_iff_toNat_le.1 h
  rw [toNat_counted, if_pos hle]
  omega

theorem counted_of_lt {base current : UInt64} (h : current < base) : counted base current = current :=
  if_neg (UInt64.not_le.2 h)

/-! ## Findings -/

namespace Finding

theorem counted_self (base : UInt64) : counted base base = 0 := by
  unfold counted
  rw [if_pos (UInt64.le_refl base), UInt64.sub_self]

theorem eq_of_counted_eq_zero {base current : UInt64} (hle : base ≤ current) (h : counted base current = 0) :
    base = current := by
  have hsum := toNat_counted_of_le hle
  rw [h] at hsum
  exact UInt64.toNat_inj.1 hsum

/-- Only counters that have not moved at all make a server idle. -/
theorem of_eq_idle_iff {base? : Option Counters} {current : Counters} :
    Finding.of base? current = .idle ↔ base? = some current := by
  cases base? with
  | none => simp [Finding.of]
  | some base =>
    rw [Option.some.injEq, Counters.ext_iff]
    unfold Finding.of
    dsimp only
    constructor
    · intro h
      split at h
      · rename_i hzero
        split at h
        · cases h
        · rename_i hkept
          rw [not_or, UInt64.not_lt, UInt64.not_lt] at hkept
          exact ⟨eq_of_counted_eq_zero hkept.1 hzero.1, eq_of_counted_eq_zero hkept.2 hzero.2⟩
      · cases h
    · rintro ⟨hin, hout⟩
      rw [hin, hout, if_pos ⟨counted_self _, counted_self _⟩, if_neg]
      rintro (h | h)
      · exact UInt64.lt_irrefl _ h
      · exact UInt64.lt_irrefl _ h

/-- The record for a server is what both counters have counted since the baseline, unless that is
nothing. -/
theorem record?_of_eq_some_iff {base? : Option Counters} {current : Counters} {server hour : UInt64}
    {usage : Usage} :
    (Finding.of base? current).record? server hour = some usage ↔
      ∃ base, base? = some base ∧ ¬ (usage.inbound = 0 ∧ usage.outbound = 0) ∧
        usage = { server, hour, inbound := counted base.inbound current.inbound
                  outbound := counted base.outbound current.outbound } := by
  cases base? with
  | none => simp [Finding.of, record?]
  | some base =>
    simp only [Option.some.injEq, exists_eq_left']
    unfold Finding.of
    dsimp only
    by_cases h : counted base.inbound current.inbound = 0 ∧ counted base.outbound current.outbound = 0
    · rw [if_pos h]
      refine iff_of_false (by split <;> simp [record?]) ?_
      rintro ⟨hne, rfl⟩
      exact hne h
    · rw [if_neg h]
      simp only [record?, Option.some.injEq]
      constructor
      · rintro rfl; exact ⟨h, rfl⟩
      · rintro ⟨-, rfl⟩; rfl

end Finding

/-! ## Servers in some order -/

/-- The list has every server that can be looked up, once and under its id. -/
structure Enumerates (servers : List (UInt64 × Server)) (lookup : UInt64 → Option Server) : Prop where
  mem : ∀ id server, (id, server) ∈ servers ↔ lookup id = some server
  distinct : servers.Pairwise fun a b => a.1 ≠ b.1

theorem enumerates_toList (c : Contents Server UInt64) : Enumerates c.toList c.get? where
  mem := c.mem_toList
  distinct := ExtTreeMap.distinct_keys_toList.imp fun h => by simpa using h

namespace Enumerates

variable {servers : List (UInt64 × Server)} {lookup : UInt64 → Option Server}

/-- Any order of the servers will do. -/
theorem perm (h : Enumerates servers lookup) {others : List (UInt64 × Server)} (hp : others.Perm servers) :
    Enumerates others lookup where
  mem id server := hp.mem_iff.trans (h.mem id server)
  distinct := (hp.pairwise_iff fun {a b} (hne : a.1 ≠ b.1) => hne.symm).2 h.distinct

theorem nodup (h : Enumerates servers lookup) : servers.Nodup :=
  h.distinct.imp fun hne heq => hne (congrArg (·.1) heq)

theorem filter (h : Enumerates servers lookup) (p : UInt64 × Server → Bool) :
    Enumerates (servers.filter p) fun id => (lookup id).filter fun server => p (id, server) where
  mem id server := by
    rw [List.mem_filter, h.mem, Option.filter_eq_some_iff]
  distinct := h.distinct.filter p

/-- The server of an id, found by going through the list. -/
theorem filter_id (h : Enumerates servers lookup) (id : UInt64) :
    servers.filter (·.1 = id) = ((lookup id).map (id, ·)).toList := by
  have hmem : ∀ entry, entry ∈ servers.filter (·.1 = id) ↔
      ∃ server, lookup id = some server ∧ entry = (id, server) := by
    rintro ⟨other, server⟩
    rw [List.mem_filter, h.mem]
    simp only [decide_eq_true_eq, Prod.mk.injEq]
    constructor
    · rintro ⟨hl, rfl⟩; exact ⟨server, hl, rfl, rfl⟩
    · rintro ⟨_, hl, rfl, rfl⟩; exact ⟨hl, rfl⟩
  cases hl : lookup id with
  | none =>
    apply List.eq_nil_iff_forall_not_mem.2
    intro entry he
    obtain ⟨server, hs, -⟩ := (hmem entry).1 he
    rw [hl] at hs; cases hs
  | some server =>
    apply List.perm_singleton.1
    refine (List.perm_ext_iff_of_nodup (h.nodup.filter _) (List.nodup_singleton _)).2 ?_
    intro entry
    rw [hmem, hl, List.mem_singleton]
    simp

end Enumerates

/-! ## Baselines -/

namespace Meter

variable {servers : List (UInt64 × Server)} {lookup : UInt64 → Option Server}

theorem getElem?_retain (m : Meter) (h : Enumerates servers lookup) (id : UInt64) :
    (m.retain servers).baselines[id]? = if (lookup id).isSome then m.baselines[id]? else none := by
  have hany : servers.any (fun entry => entry.1 = id) = (lookup id).isSome := by
    rw [Bool.eq_iff_iff, List.any_eq_true, Option.isSome_iff_exists]
    simp only [decide_eq_true_eq]
    constructor
    · rintro ⟨⟨_, server⟩, hs, rfl⟩; exact ⟨server, (h.mem _ _).1 hs⟩
    · rintro ⟨server, hs⟩; exact ⟨(id, server), (h.mem _ _).2 hs, rfl⟩
  show (m.baselines.filter fun id _ => servers.any fun entry => entry.1 = id)[id]? = _
  rw [ExtTreeMap.getElem?_filter', hany]
  cases m.baselines[id]? <;> cases lookup id <;> rfl

theorem getElem?_advance_concat (m : Meter) (servers : List (UInt64 × Server)) (last : UInt64 × Server)
    (id : UInt64) :
    (m.advance (servers ++ [last])).baselines[id]? =
      if last.1 = id then some last.2.counters else (m.advance servers).baselines[id]? := by
  unfold advance
  rw [List.foldl_append]
  simp only [List.foldl_cons, List.foldl_nil, ExtTreeMap.getElem?_insert, Std.compare_eq_iff_eq]

theorem getElem?_advance_of_mem (m : Meter) (hd : servers.Pairwise fun a b => a.1 ≠ b.1) {id : UInt64}
    {server : Server} (h : (id, server) ∈ servers) :
    (m.advance servers).baselines[id]? = some server.counters := by
  induction servers using List.reverseRecOn with
  | nil => cases h
  | append_singleton servers last ih =>
    obtain ⟨hservers, -, hlast⟩ := List.pairwise_append.1 hd
    rw [getElem?_advance_concat]
    rcases List.mem_append.1 h with h | h
    · rw [if_neg (hlast _ h last (List.mem_singleton_self last)).symm]
      exact ih hservers h
    · cases List.mem_singleton.1 h
      rw [if_pos rfl]

theorem getElem?_advance_of_not_mem (m : Meter) {id : UInt64} (h : ∀ server, (id, server) ∉ servers) :
    (m.advance servers).baselines[id]? = m.baselines[id]? := by
  induction servers using List.reverseRecOn with
  | nil => rfl
  | append_singleton servers last ih =>
    rw [getElem?_advance_concat, if_neg]
    · exact ih fun server hs => h server (List.mem_append_left _ hs)
    · rintro rfl
      exact h last.2 (by simp)

theorem getElem?_advance (m : Meter) (h : Enumerates servers lookup) (id : UInt64) :
    (m.advance servers).baselines[id]? = ((lookup id).map (·.counters)).or m.baselines[id]? := by
  cases hl : lookup id with
  | none =>
    rw [getElem?_advance_of_not_mem]; · rfl
    intro server hs
    rw [h.mem, hl] at hs; cases hs
  | some server => exact getElem?_advance_of_mem m h.distinct ((h.mem id server).2 hl)

/-- The meter after its records have been accepted. -/
def caughtUp (m : Meter) (servers : List (UInt64 × Server)) : Meter :=
  (m.retain servers).advance (m.pending servers)

/-- A meter that has caught up stands at the counters of every server, and of no other: those that
it does not move on to have not changed. -/
theorem getElem?_caughtUp (m : Meter) (h : Enumerates servers lookup) (id : UInt64) :
    (m.caughtUp servers).baselines[id]? = (lookup id).map (·.counters) := by
  unfold caughtUp pending
  rw [getElem?_advance _ (h.filter _), getElem?_retain m h]
  cases hl : lookup id with
  | none => rfl
  | some server =>
    by_cases hidle : m.finding id server = .idle
    · -- not moved on to, but the baseline it keeps is the counters as they are
      have hbase : m.baselines[id]? = some server.counters := Finding.of_eq_idle_iff.1 hidle
      simp [Option.filter, hidle, hbase]
    · simp [Option.filter, hidle]

/-! ## Records -/

/-- The record that a pass makes for an id: none without a server. -/
def due? (m : Meter) (server? : Option Server) (id hour : UInt64) : Option Usage :=
  server?.bind fun server => (m.finding id server).record? id hour

theorem due?_eq_some_iff {m : Meter} {server? : Option Server} {id hour : UInt64} {usage : Usage} :
    m.due? server? id hour = some usage ↔
      ∃ server base, server? = some server ∧ m.baselines[id]? = some base ∧
        ¬ (usage.inbound = 0 ∧ usage.outbound = 0) ∧
        usage = { server := id, hour, inbound := counted base.inbound server.counters.inbound
                  outbound := counted base.outbound server.counters.outbound } := by
  unfold due? finding
  rw [Option.bind_eq_some_iff]
  simp only [Finding.record?_of_eq_some_iff]
  constructor
  · rintro ⟨server, hserver, base, hbase, husage⟩; exact ⟨server, base, hserver, hbase, husage⟩
  · rintro ⟨server, base, hserver, hbase, husage⟩; exact ⟨server, hserver, base, hbase, husage⟩

theorem server_of_record? {finding : Finding} {server hour : UInt64} {usage : Usage}
    (h : finding.record? server hour = some usage) : usage.server = server := by
  cases finding with
  | used inbound outbound => cases h; rfl
  | newcomer => cases h
  | idle => cases h
  | restarted => cases h

/-- The records of a pass for one id. -/
theorem filter_batch (m : Meter) (h : Enumerates servers lookup) (id hour : UInt64) :
    (m.batch servers hour).filter (·.server = id) = (m.due? (lookup id) id hour).toList := by
  have hfilter : (m.batch servers hour).filter (·.server = id) = m.batch (servers.filter (·.1 = id)) hour := by
    unfold batch
    rw [List.filter_filterMap, List.filterMap_filter]
    apply List.filterMap_congr
    -- the record of an entry is made out to the entry's own id
    rintro ⟨other, server⟩ -
    dsimp only
    cases hr : (m.finding other server).record? other hour with
    | none => simp
    | some usage => simp [Option.filter, server_of_record? hr]
  rw [hfilter, h.filter_id]
  cases lookup id with
  | none => rfl
  | some server =>
    show [(id, server)].filterMap (fun entry => (m.finding entry.1 entry.2).record? entry.1 hour) =
      ((m.finding id server).record? id hour).toList
    rw [List.filterMap_cons]
    cases hr : (m.finding id server).record? id hour <;> simp

theorem due?_eq_none_iff {m : Meter} {server : Server} {base : Counters} {id hour : UInt64}
    (hbase : m.baselines[id]? = some base) :
    m.due? (some server) id hour = none ↔
      counted base.inbound server.counters.inbound = 0 ∧ counted base.outbound server.counters.outbound = 0 := by
  rw [← not_iff_not, ← ne_eq, Option.ne_none_iff_exists']
  constructor
  · rintro ⟨usage, husage⟩ hzero
    obtain ⟨_, _, ⟨⟩, hbase', hne, rfl⟩ := due?_eq_some_iff.1 husage
    rw [hbase] at hbase'; cases hbase'
    exact hne hzero
  · intro hne
    exact ⟨_, due?_eq_some_iff.2 ⟨server, base, rfl, hbase, hne, rfl⟩⟩

end Meter

/-! ## What is reported for a server -/

/-- The amounts that the records give for a server, in one direction. -/
def reported (records : List Usage) (id : UInt64) (amount : Usage → UInt64) : Nat :=
  ((records.filter (·.server = id)).map fun usage => (amount usage).toNat).sum

theorem reported_append (records more : List Usage) (id : UInt64) (amount : Usage → UInt64) :
    reported (records ++ more) id amount = reported records id amount + reported more id amount := by
  unfold reported
  rw [List.filter_append, List.map_append, List.sum_append]

namespace Meter

variable {servers : List (UInt64 × Server)} {lookup : UInt64 → Option Server}

/-- A pass reports nothing for a server that it has no baseline of. -/
theorem reported_batch_of_newcomer {m : Meter} (h : Enumerates servers lookup) {id : UInt64}
    (hbase : m.baselines[id]? = none) (hour : UInt64) (amount : Usage → UInt64) :
    reported (m.batch servers hour) id amount = 0 := by
  have hdue : m.due? (lookup id) id hour = none := by
    apply Option.eq_none_iff_forall_ne_some.2
    intro usage husage
    obtain ⟨_, _, _, hsome, -⟩ := due?_eq_some_iff.1 husage
    rw [hbase] at hsome; cases hsome
  unfold reported
  rw [m.filter_batch h, hdue]
  rfl

/-- A pass reports for a server that it has a baseline of what both counters have counted since: if it
makes no record, that is nothing. -/
theorem reported_batch {m : Meter} (h : Enumerates servers lookup) {id : UInt64} {server : Server} {base : Counters}
    (hserver : lookup id = some server) (hbase : m.baselines[id]? = some base) (hour : UInt64) :
    reported (m.batch servers hour) id (·.inbound) = (counted base.inbound server.counters.inbound).toNat ∧
      reported (m.batch servers hour) id (·.outbound) = (counted base.outbound server.counters.outbound).toNat := by
  unfold reported
  rw [m.filter_batch h, hserver]
  cases hdue : m.due? (some server) id hour with
  | none =>
    obtain ⟨hin, hout⟩ := (due?_eq_none_iff hbase).1 hdue
    rw [hin, hout]
    exact ⟨rfl, rfl⟩
  | some usage =>
    obtain ⟨_, _, ⟨⟩, hbase', -, rfl⟩ := due?_eq_some_iff.1 hdue
    rw [hbase] at hbase'; cases hbase'
    exact ⟨Nat.add_zero _, Nat.add_zero _⟩

end Meter

/-! ## Passes -/

/-- Sinks that keep the records of the batches they accept, and of no others. -/
class KeepingSink (σ : Type) {ε : outParam Type} [Sink σ ε] where
  records : σ → List Usage
  accepted : ∀ {sink later : σ} {batch : List Usage}, Sink.offer sink batch = (.ok (), later) →
    records later = records sink ++ batch
  refused : ∀ {sink later : σ} {batch : List Usage} {e : ε}, Sink.offer sink batch = (.error e, later) →
    records later = records sink

instance : KeepingSink MemorySink where
  records := MemorySink.records
  accepted {sink later batch} h := by
    simp only [Sink.offer] at h
    split at h <;> cases h
    rfl
  refused {sink later batch e} h := by
    simp only [Sink.offer] at h
    split at h <;> cases h
    rfl

namespace Meter

variable {σ ε : Type} [Sink σ ε]

/-- A pass makes no records, or has them accepted, or has them refused. -/
theorem pass_cases (m : Meter) (servers : List (UInt64 × Server)) (sink : σ) (now : UInt64) :
    (m.batch servers (hourOf now) = [] ∧ m.pass servers sink now = (.ok 0, m.caughtUp servers, sink)) ∨
    m.batch servers (hourOf now) ≠ [] ∧
      ((∃ later, Sink.offer sink (m.batch servers (hourOf now)) = (.ok (), later) ∧
          m.pass servers sink now =
            (.ok (m.batch servers (hourOf now)).length, m.caughtUp servers, later)) ∨
        ∃ e later, Sink.offer sink (m.batch servers (hourOf now)) = (.error e, later) ∧
          m.pass servers sink now = (.error e, m.retain servers, later)) := by
  unfold pass
  by_cases h : m.batch servers (hourOf now) = []
  · refine .inl ⟨h, ?_⟩
    simp only [h, List.isEmpty_nil, if_true]; rfl
  · refine .inr ⟨h, ?_⟩
    have hne : (m.batch servers (hourOf now)).isEmpty = false := by simpa using h
    simp only [hne, Bool.false_eq_true, if_false]
    rcases hoffer : Sink.offer sink (m.batch servers (hourOf now)) with ⟨_ | _, later⟩
    · exact .inr ⟨_, later, rfl, rfl⟩
    · exact .inl ⟨later, rfl, rfl⟩

/-- A pass over a roster either goes through, and then the meter stands at the counters of the servers
there are and the sink has the records; or it fails, and the meter has forgotten the servers that
are gone. -/
theorem record_cases [KeepingSink σ] (m : Meter) (servers : ServerRoster) (sink : σ) (now : UInt64) :
    ∃ result meter later, m.record servers sink now = (result, meter, later) ∧
      ((result.isOk = true ∧ (∀ id, meter.baselines[id]? = (servers.get? id).map (·.counters)) ∧
          KeepingSink.records later = KeepingSink.records sink ++ m.batch servers.toList (hourOf now)) ∨
        (result.isOk = false ∧ KeepingSink.records later = KeepingSink.records sink ∧
          ∀ id, meter.baselines[id]? = if (servers.get? id).isSome then m.baselines[id]? else none)) := by
  have hlist := enumerates_toList servers.toContents
  unfold record
  rcases m.pass_cases servers.toList sink now with
    ⟨hnone, h⟩ | ⟨-, ⟨later, hoffer, h⟩ | ⟨e, later, hoffer, h⟩⟩
  · refine ⟨_, _, _, h, .inl ⟨rfl, m.getElem?_caughtUp hlist, ?_⟩⟩
    rw [hnone, List.append_nil]
  · exact ⟨_, _, _, h, .inl ⟨rfl, m.getElem?_caughtUp hlist, KeepingSink.accepted hoffer⟩⟩
  · exact ⟨_, _, _, h, .inr ⟨rfl, KeepingSink.refused hoffer, m.getElem?_retain hlist⟩⟩

end Meter

end FleetRoster
