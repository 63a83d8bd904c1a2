/-
**A ledger of all requests.**

Whatever was submitted and accepted is entered in a ledger (`Engine.ledger`): each entry keeps what
its request was told since, and how many tokens its first lane had when it was last fed. As long as
nobody is given up, the ledger and the scheduler account for the same requests (`Accounts`): the
current entries of requests that are known are those of the tickets, any other entry was told a
reason to finish in its last record and nowhere else, and the lengths of all entries are what the
totals have counted so far or are still to count.

* `Accounts.submitted`, `Accounts.stepped`: a new request, and a step;
* `Engine.accounts_answered`, `Engine.accounts_served`: one call, and any calls;
* `Engine.requests_ledger`: the entries are those of the requests that were accepted.
-/

import ContinuousBatching.Proofs.Engine.Independence

namespace ContinuousBatching

/-- The number of tokens that a request may generate; it generates one at least. -/
def Request.allowance (request : Request) : Nat := max request.settings.maxTokens 1

/-- The requests that were accepted. -/
def accepted : List Call → List Answer → List Request
  | .submit submission :: calls, .named id :: answers =>
    ⟨id, submission.inputs, submission.settings⟩ :: accepted calls answers
  | _ :: calls, _ :: answers => accepted calls answers
  | _, _ => []

/-- A request that was accepted. Its entry is current until another request takes its name. -/
structure Entry where
  request : Request
  /-- What it was told. -/
  told : List (List TokenId × Option FinishReason)
  /-- The number of tokens of its first lane when it was last fed. -/
  committed : Nat
  current : Bool

namespace Entry

/-- A request that was just accepted. -/
def ofRequest (request : Request) : Entry := ⟨request, [], 0, true⟩

/-- Another request takes a name. -/
def renamed (id : RequestId) (entry : Entry) : Entry :=
  if entry.request.id = id then { entry with current := false } else entry

/-- A step fed the cluster and sent records. -/
def noted (fed : Cluster) (records : List StreamRecord) (entry : Entry) : Entry :=
  if entry.current then
    { entry with
      told := entry.told ++ toldOf entry.request.id records
      committed := ((fed.scheduler.tickets.get? entry.request.id).map fun ticket =>
        ticket.primary.committed.length).getD entry.committed }
  else entry

/-- The ticket of an entry, while its request is known. -/
def ticket? (c : Cluster) (entry : Entry) : Option Ticket :=
  if entry.current then c.scheduler.tickets.get? entry.request.id else none

/-- What is counted of the ticket of an entry, while its request is known. -/
def counted (c : Cluster) (length : Ticket → Nat) (entry : Entry) : Nat :=
  ((entry.ticket? c).map length).getD 0

/-- The request was told a reason to finish in its last record, and nowhere else. -/
def Ended (entry : Entry) : Prop :=
  ∃ earlier tokens reason, entry.told = earlier ++ [(tokens, some reason)] ∧
    ∀ record ∈ earlier, record.2 = none

/-- What an entry says of a request that is known, or of one that is not. -/
inductive Tracks (entry : Entry) : Option Ticket → Prop
  | going {ticket : Ticket} (same : ticket.request = entry.request)
      (level : ticket.primary.committed.length = entry.committed)
      (goesOn : ∀ record ∈ entry.told, record.2 = none) : Tracks entry (some ticket)
  | ended (finished : entry.Ended) : Tracks entry none

end Entry

/-- The entries and the scheduler account for the same requests. -/
structure Accounts (entries : List Entry) (c : Cluster) : Prop where
  wanted : ∀ id terms, c.terms? id = some terms → terms.abortRequested = false
  apart : entries.Pairwise fun first second =>
    first.current = true → second.current = true → first.request.id ≠ second.request.id
  entered : ∀ id ∈ c.scheduler.tickets.keys,
    ∃ entry ∈ entries, entry.current = true ∧ entry.request.id = id
  tracks : ∀ entry ∈ entries, entry.Tracks (entry.ticket? c)
  within : ∀ entry ∈ entries, entry.committed ≤ entry.request.allowance
  prefill : ((entries.map Entry.request).map Request.inputLength).sum = c.prefillDue
  decode : (entries.map fun entry => entry.committed - 1).sum = c.decodeDue

namespace Engine

/-- The ledger after a call. -/
def noted (engine : Engine) (call : Call) (answer : Answer) (after : Engine)
    (entries : List Entry) : List Entry :=
  match call, answer with
  | .submit submission, .named id =>
    entries.map (Entry.renamed id) ++ [.ofRequest ⟨id, submission.inputs, submission.settings⟩]
  | .step, .stepped _ => entries.map (Entry.noted engine.fed (engine.deliveredSince after))
  | _, _ => entries

/-- The ledger after calls. -/
def ledger (engine : Engine) (entries : List Entry) : List Call → List Entry
  | [] => entries
  | call :: rest =>
    match engine.answer call with
    | none => entries
    | some (answer, after) => after.ledger (engine.noted call answer after entries) rest

end Engine

/-! ### Entries -/

namespace Entry

variable {entry : Entry} {c d : Cluster} {id : RequestId} {records : List StreamRecord}

@[simp]
theorem request_renamed (id : RequestId) (entry : Entry) :
    (entry.renamed id).request = entry.request := by
  unfold renamed
  split <;> rfl

@[simp]
theorem committed_renamed (id : RequestId) (entry : Entry) :
    (entry.renamed id).committed = entry.committed := by
  unfold renamed
  split <;> rfl

theorem told_renamed (id : RequestId) (entry : Entry) :
    (entry.renamed id).told = entry.told := by
  unfold renamed
  split <;> rfl

/-- A name that is taken leaves every request what it was. -/
theorem map_request_renamed (id : RequestId) (entries : List Entry) :
    (entries.map (renamed id)).map request = entries.map request := by
  rw [List.map_map]
  exact List.map_congr_left fun entry _ => request_renamed id entry

theorem current_renamed (current : (entry.renamed id).current = true) :
    entry.current = true ∧ entry.request.id ≠ id := by
  unfold renamed at current
  split at current
  · cases current
  · rename_i differ
    exact ⟨current, differ⟩

@[simp]
theorem request_noted (fed : Cluster) (records : List StreamRecord) (entry : Entry) :
    (entry.noted fed records).request = entry.request := by
  unfold noted
  split <;> rfl

@[simp]
theorem current_noted (fed : Cluster) (records : List StreamRecord) (entry : Entry) :
    (entry.noted fed records).current = entry.current := by
  unfold noted
  split
  · rfl
  · rfl

/-- A step leaves every request what it was. -/
theorem map_request_noted (fed : Cluster) (records : List StreamRecord) (entries : List Entry) :
    (entries.map (noted fed records)).map request = entries.map request := by
  rw [List.map_map]
  exact List.map_congr_left fun entry _ => request_noted fed records entry

theorem noted_of_past (past : entry.current = false) : entry.noted d records = entry := by
  rw [noted, past]
  rfl

theorem noted_of_known {ticket : Ticket} (current : entry.current = true)
    (found : d.scheduler.tickets.get? entry.request.id = some ticket) :
    entry.noted d records =
      { entry with
        told := entry.told ++ toldOf entry.request.id records
        committed := ticket.primary.committed.length } := by
  rw [noted, if_pos current, found]
  rfl

theorem noted_of_unknown (absent : d.scheduler.tickets.get? entry.request.id = none)
    (silent : toldOf entry.request.id records = []) : entry.noted d records = entry := by
  rw [noted, absent, silent, List.append_nil]
  exact ite_self entry

theorem ticket?_of_current (current : entry.current = true) :
    entry.ticket? c = c.scheduler.tickets.get? entry.request.id := by
  rw [ticket?, if_pos current]

theorem ticket?_of_past (past : entry.current = false) : entry.ticket? c = none := by
  rw [ticket?, past]
  rfl

theorem found_of_ticket? {ticket : Ticket} (known : entry.ticket? c = some ticket) :
    c.scheduler.tickets.get? entry.request.id = some ticket := by
  rw [ticket?] at known
  split at known
  · exact known
  · cases known

theorem ticket?_isSome : (entry.ticket? c).isSome = true ↔
    entry.current = true ∧ entry.request.id ∈ c.scheduler.tickets.keys := by
  rw [ticket?, Registry.mem_keys_iff]
  split
  · rename_i current
    rw [Option.isSome_iff_exists, and_iff_right current]
  · rename_i past
    simp [past]

/-- Whether a request has ended depends on what it was told. -/
theorem Ended.congr {other : Entry} (ended : entry.Ended) (told : other.told = entry.told) :
    other.Ended := by
  rwa [Ended, told]

/-- What a step tells a request keeps its entry up to date. -/
theorem Tracks.told {p : Premises} {ticket fed : Ticket} {next? : Option Ticket}
    (tracks : entry.Tracks (some ticket))
    (told : Told p ticket.terms (toldOf entry.request.id records) (next?.map Ticket.terms))
    (level : ∀ next, next? = some next →
      next.primary.committed.length = fed.primary.committed.length) :
    Tracks { entry with
      told := entry.told ++ toldOf entry.request.id records
      committed := fed.primary.committed.length } next? := by
  obtain ⟨same, _, goesOn⟩ := tracks
  generalize toldOf entry.request.id records = more at told ⊢
  generalize known : next?.map Ticket.terms = after? at told
  have ends : ∀ {tokens : List TokenId} {reason : FinishReason}, next? = none →
      Tracks { entry with
        told := entry.told ++ [(tokens, some reason)]
        committed := fed.primary.committed.length } next? := by
    rintro tokens reason rfl
    exact .ended ⟨entry.told, tokens, reason, rfl, goesOn⟩
  cases told with
  | nothing =>
      obtain ⟨next, rfl, terms⟩ := Option.map_eq_some_iff.mp known
      refine .going ((congrArg Terms.request terms).trans same) (level next rfl) ?_
      rwa [List.append_nil]
  | next wanted stream judged =>
      obtain ⟨next, rfl, terms⟩ := Option.map_eq_some_iff.mp known
      refine .going ((congrArg Terms.request terms).trans same) (level next rfl) ?_
      intro record member
      rcases List.mem_append.mp member with earlier | now
      · exact goesOn record earlier
      · rw [List.mem_singleton.mp now]
  | last => exact ends (Option.map_eq_none_iff.mp known)
  | broken => exact ends (Option.map_eq_none_iff.mp known)
  | givenUp => exact ends (Option.map_eq_none_iff.mp known)

/-- Another request takes a name that is free. -/
theorem Tracks.renamed (tracks : entry.Tracks (entry.ticket? c))
    (fresh : id ∉ c.scheduler.tickets.keys)
    (others : entry.request.id ≠ id →
      d.scheduler.tickets.get? entry.request.id = c.scheduler.tickets.get? entry.request.id) :
    (entry.renamed id).Tracks ((entry.renamed id).ticket? d) := by
  by_cases here : entry.request.id = id
  · -- whoever had the name before has ended
    have gone : entry.ticket? c = none := by
      rw [ticket?, here, Registry.get?_eq_none_iff.mpr fresh, ite_self]
    have past : (entry.renamed id).current = false := by
      rw [Entry.renamed, if_pos here]
    rw [gone] at tracks
    rw [ticket?_of_past past]
    cases tracks with
    | ended finished => exact .ended (finished.congr (told_renamed id entry))
  · rwa [Entry.renamed, if_neg here, ticket?, others here]

/-- What a step does to an entry: nothing if its request is not known. -/
inductive Changes (c d : Cluster) (records : List StreamRecord) (f : Cluster) (entry : Entry) :
    Prop
  | past (unknown : entry.ticket? c = none) (unfed : entry.ticket? d = none)
      (gone : entry.ticket? f = none) (finished : entry.Ended)
      (same : entry.noted d records = entry) : Changes c d records f entry
  | known {ticket fed : Ticket} (current : entry.current = true)
      (found : c.scheduler.tickets.get? entry.request.id = some ticket)
      (there : d.scheduler.tickets.get? entry.request.id = some fed)
      (terms : fed.terms = ticket.terms) (tracks : entry.Tracks (some ticket)) :
      Changes c d records f entry

end Entry

namespace Accounts

variable {p : Premises} {entries : List Entry} {entry : Entry} {c d f : Cluster}
  {caches : List PagedCache} {batch : List RequestId} {records : List StreamRecord}

/-- Only the trace, the replicas and what was delivered have changed. -/
theorem congr (accounts : Accounts entries c) (scheduler : d.scheduler = c.scheduler) :
    Accounts entries d := by
  obtain ⟨wanted, apart, entered, tracks, within, prefill, decode⟩ := accounts
  unfold Cluster.terms? at wanted
  unfold Entry.ticket? at tracks
  unfold Cluster.prefillDue at prefill
  unfold Cluster.decodeDue at decode
  rw [← scheduler] at wanted entered tracks prefill decode
  exact ⟨wanted, apart, entered, tracks, within, prefill, decode⟩

/-- What is added up over the entries of requests that are known is added up over their tickets,
also once these tickets have changed. -/
theorem sum_counted (accounts : Accounts entries c)
    (keys : d.scheduler.tickets.keys = c.scheduler.tickets.keys) (length : Ticket → Nat) :
    (entries.map (Entry.counted d length)).sum =
      (d.scheduler.tickets.values.map length).sum := by
  let known := entries.filter fun entry => (entry.ticket? d).isSome
  have perm : (known.map fun entry => entry.request.id).Perm d.scheduler.tickets.keys := by
    have nodup : (known.map fun entry => entry.request.id).Nodup := by
      refine List.pairwise_map.mpr ((accounts.apart.filter _).imp_of_mem ?_)
      intro first second there also apart
      exact apart (Entry.ticket?_isSome.mp (List.mem_filter.mp there).2).1
        (Entry.ticket?_isSome.mp (List.mem_filter.mp also).2).1
    refine (List.perm_ext_iff_of_nodup nodup d.scheduler.tickets.nodup_keys).mpr fun id => ?_
    constructor
    · intro member
      obtain ⟨entry, there, rfl⟩ := List.mem_map.mp member
      exact (Entry.ticket?_isSome.mp (List.mem_filter.mp there).2).2
    · intro member
      obtain ⟨entry, there, current, rfl⟩ := accounts.entered id (keys ▸ member)
      exact List.mem_map_of_mem
        (List.mem_filter.mpr ⟨there, Entry.ticket?_isSome.mpr ⟨current, member⟩⟩)
  rw [Registry.sum_values, ← (perm.map _).sum_nat, List.map_map, sum_filter]
  refine sum_map_congr fun entry _ => ?_
  cases found : entry.ticket? d with
  | none =>
      rw [Entry.counted, found]
      rfl
  | some ticket =>
      rw [Entry.counted, found, Option.isSome_some, if_pos rfl, Function.comp_apply,
        Entry.found_of_ticket? found]

/-! ### A new request -/

/-- **A new request.** -/
theorem submitted (accounts : Accounts entries c) (request : Request) {count : Nat}
    (fresh : request.id ∉ c.scheduler.tickets.keys)
    (scheduler : d.scheduler = c.scheduler.added request.id (.ofRequest request count)) :
    Accounts (entries.map (Entry.renamed request.id) ++ [.ofRequest request]) d := by
  have tickets : d.scheduler.tickets =
      c.scheduler.tickets.insert request.id (.ofRequest request count) := by
    rw [scheduler]
    rfl
  have found : ∀ other, d.scheduler.tickets.get? other =
      if other = request.id then some (.ofRequest request count)
      else c.scheduler.tickets.get? other := fun other => by
    rw [tickets, Registry.get?_insert]
  have totals : d.scheduler.totals = c.scheduler.totals := by
    rw [scheduler]
    rfl
  have values : ∀ length : Ticket → Nat, (d.scheduler.tickets.values.map length).sum =
      length (.ofRequest request count) + (c.scheduler.tickets.values.map length).sum := by
    intro length
    rw [tickets, Registry.sum_values_insert fresh]
  refine ⟨fun id terms known => ?_, ?_, fun id member => ?_, fun entry member => ?_,
    fun entry member => ?_, ?_, ?_⟩
  · rw [Cluster.terms?, found] at known
    split at known
    · cases known
      rfl
    · exact accounts.wanted id terms known
  · refine List.pairwise_append.mpr ⟨?_, List.pairwise_singleton _ _, ?_⟩
    · refine List.pairwise_map.mpr (accounts.apart.imp fun apart first second => ?_)
      rw [Entry.request_renamed, Entry.request_renamed]
      exact apart (Entry.current_renamed first).1 (Entry.current_renamed second).1
    · intro entry member new there current _
      obtain ⟨before, _, rfl⟩ := List.mem_map.mp member
      rw [List.mem_singleton.mp there, Entry.request_renamed]
      exact (Entry.current_renamed current).2
  · rw [tickets, Registry.mem_keys_insert] at member
    by_cases here : id = request.id
    · refine ⟨.ofRequest request, List.mem_append_right _ (List.mem_singleton_self _), rfl, ?_⟩
      exact here.symm
    · obtain ⟨entry, there, current, rfl⟩ := accounts.entered id (member.resolve_left here)
      refine ⟨entry, List.mem_append_left _ (List.mem_map.mpr ⟨entry, there, ?_⟩), current, rfl⟩
      rw [Entry.renamed, if_neg here]
  · rcases List.mem_append.mp member with old | new
    · obtain ⟨before, there, rfl⟩ := List.mem_map.mp old
      refine (accounts.tracks before there).renamed fresh fun differ => ?_
      rw [found, if_neg differ]
    · rw [List.mem_singleton.mp new, Entry.ticket?_of_current rfl, found]
      exact (if_pos rfl : ite (request.id = request.id) _ _ = _) ▸
        .going rfl rfl fun record absent => absurd absent List.not_mem_nil
  · rcases List.mem_append.mp member with old | new
    · obtain ⟨before, there, rfl⟩ := List.mem_map.mp old
      rw [Entry.request_renamed, Entry.committed_renamed]
      exact accounts.within before there
    · rw [List.mem_singleton.mp new]
      exact Nat.zero_le _
  · rw [Cluster.prefillDue, values, totals, List.map_append, Entry.map_request_renamed,
      List.map_append, List.sum_append, accounts.prefill, Cluster.prefillDue]
    show _ + (request.inputLength + 0) = _ + (request.inputLength + _)
    omega
  · rw [Cluster.decodeDue, values, totals, List.map_append, List.sum_append, List.map_map,
      sum_map_congr (g := fun entry => entry.committed - 1) fun entry _ => by
        rw [Function.comp_apply, Entry.committed_renamed], accounts.decode, Cluster.decodeDue]
    show _ + 0 = _ + (0 + _)
    omega

/-! ### A step -/

/-- What a step does to each entry. -/
theorem changes (accounts : Accounts entries c) (stepped : Cluster.Stepped p c batch d records f)
    (member : entry ∈ entries) : entry.Changes c d records f := by
  obtain ⟨_, grown⟩ := stepped.grown
  have tracks := accounts.tracks entry member
  by_cases current : entry.current = true
  · have terms := grown.silent.terms entry.request.id
    rw [Entry.ticket?_of_current current] at tracks
    cases known : c.scheduler.tickets.get? entry.request.id with
    | none =>
        have unknown : c.terms? entry.request.id = none := by
          rw [Cluster.terms?, known]
          rfl
        obtain ⟨silent, gone⟩ := stepped.tells.unknown _ unknown
        rw [known] at tracks
        rw [unknown] at terms
        cases tracks with
        | ended finished =>
            refine .past ?_ ?_ ?_ finished
              (Entry.noted_of_unknown (Option.map_eq_none_iff.mp terms) silent)
            · rw [Entry.ticket?_of_current current, known]
            · rw [Entry.ticket?_of_current current, Option.map_eq_none_iff.mp terms]
            · rw [Entry.ticket?_of_current current, Option.map_eq_none_iff.mp gone]
    | some ticket =>
        rw [known] at tracks
        rw [Cluster.terms?_of_found known] at terms
        obtain ⟨fed, there, same⟩ := Option.map_eq_some_iff.mp terms
        exact .known current known there same tracks
  · have past : entry.current = false := Bool.eq_false_iff.mpr current
    rw [Entry.ticket?_of_past past] at tracks
    cases tracks with
    | ended finished =>
        exact .past (Entry.ticket?_of_past past) (Entry.ticket?_of_past past)
          (Entry.ticket?_of_past past) finished (Entry.noted_of_past past)

/-- The entries count as many tokens more as the batch was fed. -/
theorem decode_noted (accounts : Accounts entries c)
    (stepped : Cluster.Stepped p c batch d records f) :
    ((entries.map (Entry.noted d records)).map fun entry => entry.committed - 1).sum =
      d.decodeDue := by
  obtain ⟨_, grown⟩ := stepped.grown
  -- an entry counts what it counted before, less the tokens before the batch, and those after it
  have each : ∀ entry ∈ entries,
      (entry.noted d records).committed - 1 + entry.counted c Ticket.decodeLength =
        entry.committed - 1 + entry.counted d Ticket.decodeLength := by
    intro entry member
    cases accounts.changes stepped member with
    | past unknown unfed _ _ same => rw [same, Entry.counted, Entry.counted, unknown, unfed]
    | @known ticket fed current found there _ tracks =>
        have level : ticket.primary.committed.length = entry.committed := by
          cases tracks with
          | going _ level _ => exact level
        rw [Entry.noted_of_known current there, Entry.counted, Entry.counted,
          Entry.ticket?_of_current current, Entry.ticket?_of_current current, found, there]
        show fed.primary.committed.length - 1 + (ticket.primary.committed.length - 1) =
          entry.committed - 1 + (fed.primary.committed.length - 1)
        omega
  have sums := sum_map_congr each
  have before := accounts.decode
  rw [List.sum_map_add, List.sum_map_add, accounts.sum_counted rfl,
    accounts.sum_counted grown.silent.keys] at sums
  rw [Cluster.decodeDue] at before ⊢
  rw [List.map_map, grown.silent.decodeLength]
  simp only [Function.comp_def]
  omega

/-- Nobody was fed more tokens than may be generated. -/
theorem within_noted (rest : c.AtRest p caches) (accounts : Accounts entries c)
    (stepped : Cluster.Stepped p c batch d records f) (member : entry ∈ entries) :
    (entry.noted d records).committed ≤ entry.request.allowance := by
  obtain ⟨_, grown⟩ := stepped.grown
  cases accounts.changes stepped member with
  | past _ _ _ _ same =>
      rw [same]
      exact accounts.within entry member
  | @known ticket fed current found there terms tracks =>
      have level := grown.level _ fed there _ Ticket.primary_mem_lanes
      have fewer := rest.reported_lt found
      have reported : fed.reported = ticket.reported := congrArg Terms.reported terms
      have same : ticket.request = entry.request := by
        cases tracks with
        | going same _ _ => exact same
      rw [same] at fewer
      rw [Entry.noted_of_known current there]
      show fed.primary.committed.length ≤ max entry.request.settings.maxTokens 1
      rw [level]
      split <;> omega

/-- Every entry is up to date after the step. -/
theorem tracks_noted (accounts : Accounts entries c)
    (stepped : Cluster.Stepped p c batch d records f) (member : entry ∈ entries) :
    (entry.noted d records).Tracks ((entry.noted d records).ticket? f) := by
  cases accounts.changes stepped member with
  | past _ _ gone finished same =>
      rw [same, gone]
      exact .ended finished
  | @known ticket fed current found there _ tracks =>
      have here : (entry.noted d records).ticket? f =
          f.scheduler.tickets.get? entry.request.id := by
        rw [Entry.ticket?, Entry.current_noted, Entry.request_noted, if_pos current]
      rw [here, Entry.noted_of_known current there]
      refine tracks.told (stepped.tells.known _ _ (Cluster.terms?_of_found found)) ?_
      intro next now
      obtain ⟨before, was, reported⟩ := stepped.lanes _ next now
      cases there.symm.trans was
      rw [reported.primary]

/-- **A step.** -/
theorem stepped (rest : c.AtRest p caches) (accounts : Accounts entries c)
    (stepped : Cluster.Stepped p c batch d records f) :
    Accounts (entries.map (Entry.noted d records)) f := by
  refine ⟨fun id terms known => ?_, ?_, fun id member => ?_, fun entry member => ?_,
    fun entry member => ?_, ?_, ?_⟩
  · obtain ⟨before, was, told⟩ := stepped.earlier known
    exact told.abortRequested_of_some.trans (accounts.wanted id before was)
  · refine List.pairwise_map.mpr (accounts.apart.imp fun apart => ?_)
    simpa only [Entry.current_noted, Entry.request_noted] using apart
  · obtain ⟨entry, there, current, same⟩ := accounts.entered id (stepped.keys_subset member)
    refine ⟨_, List.mem_map_of_mem there, ?_, ?_⟩
    · rw [Entry.current_noted, current]
    · rw [Entry.request_noted, same]
  · obtain ⟨entry, there, rfl⟩ := List.mem_map.mp member
    exact accounts.tracks_noted stepped there
  · obtain ⟨entry, there, rfl⟩ := List.mem_map.mp member
    rw [Entry.request_noted]
    exact accounts.within_noted rest stepped there
  · rw [stepped.prefillDue, Entry.map_request_noted, accounts.prefill]
  · rw [stepped.balanced.decode, accounts.decode_noted stepped]

end Accounts

/-! ### Calls -/

namespace Engine

variable {p : Premises} {engine after : Engine} {entries : List Entry}

/-- A step where nothing is pending. -/
theorem noted_idle (rests : engine.Rests p) (idle : engine.hasPending = false)
    (entries : List Entry) :
    entries.map (Entry.noted engine.fed (engine.deliveredSince engine)) = entries := by
  obtain ⟨caches, rest⟩ := rests.rest
  have silent : engine.cluster.Silent engine.fed := by
    rw [fed, rests.settings]
    exact rest.fed_silent
  have nobody : engine.fed.scheduler.tickets.keys = [] := by
    rw [silent.keys]
    exact Scheduler.keys_of_idle idle
  refine (List.map_congr_left fun entry _ => ?_).trans (List.map_id entries)
  refine Entry.noted_of_unknown (Registry.get?_eq_none_iff.mpr ?_) ?_
  · rw [nobody]
    exact List.not_mem_nil
  · rw [deliveredSince, List.drop_length]
    rfl

/-- **A step that succeeds.** -/
theorem accounts_advanced (rests : engine.Rests p) (accounts : Accounts entries engine.cluster)
    (advanced : (engine.hasPending = false ∧ after = engine) ∨
      (engine.hasPending = true ∧
        ¬ engine.cluster.Jammed p.settings.maxRunning engine.cluster.caches ∧
        ∃ batch records,
          Cluster.Stepped p engine.cluster batch engine.fed records after.cluster)) :
    Accounts (entries.map (Entry.noted engine.fed (engine.deliveredSince after)))
      after.cluster := by
  obtain ⟨caches, rest⟩ := rests.rest
  rcases advanced with ⟨idle, rfl⟩ | ⟨_, _, batch, records, stepped⟩
  · rwa [noted_idle rests idle]
  · have since : engine.deliveredSince after = records := by
      rw [deliveredSince, stepped.delivered, List.drop_left, List.flatten_singleton]
    rw [since]
    exact accounts.stepped rest stepped

/-- **One call** that gives nobody up. -/
theorem accounts_answered (rests : engine.Rests p) (accounts : Accounts entries engine.cluster)
    {call : Call} {answer : Answer} (wanted : ∀ id, call ≠ .abort id)
    (answered : engine.answer call = some (answer, after)) :
    Accounts (engine.noted call answer after entries) after.cluster := by
  refine of_answered (?_ : Meets call.run engine (fun answer after =>
    Accounts (engine.noted call answer after entries) after.cluster) _) answered
  cases call with
  | submit submission =>
      unfold Call.run
      rw [meets_map]
      refine (submit_adds engine submission).mono ?_ ?_
      · rintro id after ⟨_, fresh, count, scheduler⟩
        exact accounts.submitted ⟨id, submission.inputs, submission.settings⟩ fresh scheduler
      · rintro _ after same _ _
        rw [same.cluster]
        exact accounts
  | abort id => exact absurd rfl (wanted id)
  | step =>
      unfold Call.run
      rw [meets_map]
      refine (step_advances rests).mono (fun _ after both => ?_) ?_
      · exact accounts_advanced rests accounts both.2
      · rintro _ after ⟨_, ⟨rfl, _⟩ | ⟨_, rfl, _⟩⟩ _ refused
        · cases refused
        · exact accounts

/-- **Any calls** that give nobody up. -/
theorem accounts_served (rests : engine.Rests p) (accounts : Accounts entries engine.cluster)
    {calls : List Call} {answers : List Answer} (wanted : ∀ id, .abort id ∉ calls)
    (served : engine.serve calls = some (answers, after)) :
    Accounts (engine.ledger entries calls) after.cluster := by
  induction calls generalizing engine entries answers with
  | nil =>
      cases served
      exact accounts
  | cons call rest ih =>
      obtain ⟨first, middle, later, answered, onwards, rfl⟩ := serve_cons.mp served
      rw [ledger, answered]
      refine ih (rests.answered answered).1 ?_
        (fun id member => wanted id (List.mem_cons_of_mem call member)) onwards
      exact accounts_answered rests accounts
        (fun id same => wanted id (same ▸ List.mem_cons_self)) answered

/-- The ledger of calls in a row. -/
theorem ledger_append {calls : List Call} {answers : List Answer} (more : List Call)
    (served : engine.serve calls = some (answers, after)) :
    engine.ledger entries (calls ++ more) =
      after.ledger (engine.ledger entries calls) more := by
  induction calls generalizing engine entries answers with
  | nil =>
      cases served
      rfl
  | cons call rest ih =>
      obtain ⟨first, middle, later, answered, onwards, rfl⟩ := serve_cons.mp served
      rw [List.cons_append, ledger, ledger, answered]
      exact ih onwards

/-- **The requests of a ledger** are those that were accepted. -/
theorem requests_ledger {calls : List Call} {answers : List Answer}
    (served : engine.serve calls = some (answers, after)) :
    (engine.ledger entries calls).map Entry.request =
      entries.map Entry.request ++ accepted calls answers := by
  induction calls generalizing engine entries answers with
  | nil =>
      cases served
      exact (List.append_nil _).symm
  | cons call rest ih =>
      obtain ⟨first, middle, later, answered, onwards, rfl⟩ := serve_cons.mp served
      rw [ledger, answered]
      refine (ih onwards).trans ?_
      unfold noted
      split
      · rw [List.map_append, Entry.map_request_renamed, List.append_assoc]
        rfl
      · rw [Entry.map_request_noted]
        rfl
      · rename_i unnamed _
        rw [accepted]
        exact unnamed

/-- At the start nobody is known. -/
theorem Starts.accounts (starts : engine.Starts p) : Accounts [] engine.cluster := by
  obtain ⟨caches, built, _, _, ran, same⟩ := starts
  obtain ⟨_, rfl⟩ := (ofReplicas_yields _ _ _).of_ok ran
  have empty : Accounts [] (Cluster.ofReplicas (caches.map .paged)
      (caches.map Replica.paged).length (.ofCapacity p.settings.maxSequenceIds)) := by
    refine ⟨fun _ _ known => ?_, List.Pairwise.nil, fun _ member => ?_, fun _ member => ?_,
      fun _ member => ?_, rfl, rfl⟩
    · cases known
    · cases member
    · cases member
    · cases member
  rcases same with rfl | rfl
  · exact empty
  · exact empty.congr rfl

end Engine

end ContinuousBatching
