import ReceiveOffload.Proofs.Limits

/-!
# Listings in the Metadata

While an aggregate grows, the payload sizes of its segments go to the area of the
flow, each behind the one before, and when it is closed their number goes in
front. So when an aggregate is handed out its area lists its segments, if nobody
else wrote there.

Somebody else is another flow, and that is excluded by keeping the areas apart. It
is also the next aggregate of the same flow. A segment that closes one aggregate
and opens the next does both in one call, and the size of the new one goes to the
start of the area before whoever called can look at the old one's. The area then
has the count of the aggregate that was handed out and, behind it, the first size
of an aggregate that is only beginning.

Nothing else goes wrong. In every other call that hands out an aggregate all sizes
are there, and in this one all but the first.

## Main definitions

* `Metadata.areaLength`: How many octets the area of a flow has.
* `Metadata.Lists`: An area lists the sizes of segments.
* `Metadata.Describes`: An area has the count and the sizes of an aggregate.
* `Pending.Logs`: The sizes of a pending aggregate were all written.
* `Pending.Placed`: A pending aggregate stays inside its area.
* `Metadata.Records`: What an area has of an aggregate that was handed out.

## Theorems

* `Course.logs`: What a call writes to the area of its flow.
* `Course.agreeOn`: What a call does not write.
* `metadata_describes_iff`: In every run, when the area describes the aggregate.
* `not_describes_replaced`: It does not always.
-/

namespace ReceiveOffload

namespace Metadata

/-- How many octets the area of a flow has whose aggregates have so many
    segments. -/
def areaLength (segments : Nat) : Nat :=
  sizesOffset + 2 * segments

/-- An area lists the payload sizes of the offered segments, in order. -/
def Lists (m : Metadata) (base : UInt64) (offers : List Offer) : Prop :=
  ∀ i x, offers[i]? = some x → (m.sizeAt base i).toNat = x.segment.payload.length

/-- An area has the number of segments of an aggregate and lists their sizes. -/
structure Describes (m : Metadata) (base : UInt64) (aggregate : Aggregate) (offers : List Offer) :
    Prop where
  count : (m.countAt base).toNat = aggregate.segments
  sizes : m.Lists base offers

/-- What an area has of an aggregate that was handed out, if the aggregate that was
    opened in its place is made of the offers `next`. -/
structure Records (m : Metadata) (base : UInt64) (aggregate : Aggregate)
    (offers next : List Offer) : Prop where
  count : (m.countAt base).toNat = aggregate.segments
  next_le : next.length ≤ 1
  /-- The sizes of what was opened have taken the place of as many others. -/
  sizes : m.Lists base (next ++ offers.drop next.length)

variable {m m' : Metadata} {base : UInt64} {offers offers' : List Offer}

/-- Writing one size changes the list in one place. -/
theorem Lists.writeSize (lists : m.Lists base offers) (x : Offer) (genuine : x.segment.Genuine)
    (j : Nat) (hj : offers'[j]? = some x) (hsame : ∀ i, i ≠ j → offers'[i]? = offers[i]?)
    (hlength : offers'.length < 2 ^ 16) :
    (m.write (sizeAddress base j)
      (Octets.ofWord16 (UInt16.ofNat x.segment.headers.payloadLength))).Lists base offers' := by
  have hfits : ∀ i y, offers'[i]? = some y → sizesOffset + 2 * i + 2 ≤ 2 ^ 64 := by
    intro i y hy
    rcases List.getElem?_eq_some_iff.mp hy with ⟨hlt, _⟩
    rw [sizesOffset]
    omega
  intro i y hy
  rw [sizeAt_writeSize m base i j _ (hfits i y hy) (hfits j x hj)]
  by_cases hij : i = j
  · rw [hij, hj, Option.some.injEq] at hy
    rw [if_pos hij, ← hy, ← genuine.length_payload]
    exact UInt16.toNat_ofNat_of_lt' genuine.length_payload_lt
  · rw [if_neg hij]
    exact lists i y (hsame i hij ▸ hy)

theorem Lists.writeCount (lists : m.Lists base offers) (count : UInt32)
    (hlength : offers.length < 2 ^ 16) :
    (m.write (countAddress base) (Octets.ofWord32 count)).Lists base offers := by
  intro i x hx
  rcases List.getElem?_eq_some_iff.mp hx with ⟨hlt, _⟩
  rw [sizeAt_writeCount m base i count (by rw [sizesOffset]; omega)]
  exact lists i x hx

/-- A memory that agrees on the area lists the same sizes there. -/
theorem Lists.of_agreeOn {segments : Nat} (lists : m.Lists base offers)
    (agree : m.AgreeOn m' base (areaLength segments)) (hsegments : offers.length ≤ segments)
    (hlength : offers.length < 2 ^ 16) : m'.Lists base offers := by
  intro i x hx
  rcases List.getElem?_eq_some_iff.mp hx with ⟨hlt, _⟩
  rw [agree.sizeAt_eq i (by rw [areaLength]; omega) (by rw [sizesOffset]; omega)]
  exact lists i x hx

/-- An area describes an aggregate unless its first size was replaced by another
    one. -/
theorem Records.describes_iff {aggregate : Aggregate} {next : List Offer}
    (records : m.Records base aggregate offers next) :
    m.Describes base aggregate offers ↔ ∀ x ∈ offers.head?, ∀ y ∈ next.head?,
      y.segment.payload.length = x.segment.payload.length := by
  have hsizes := records.sizes
  rcases next with _ | ⟨y, _ | ⟨_, _⟩⟩
  · simp only [List.head?_nil, Option.not_mem_none, false_implies, implies_true, iff_true]
    exact ⟨records.count, hsizes⟩
  · have hy := hsizes 0 y rfl
    rcases offers with _ | ⟨x, offers⟩
    · simp only [List.head?_nil, Option.not_mem_none, false_implies, implies_true, iff_true]
      exact ⟨records.count, fun _ _ hz => by rw [List.getElem?_nil] at hz; cases hz⟩
    simp only [List.head?_cons, Option.mem_some_iff, forall_eq']
    constructor
    · intro describes
      exact hy.symm.trans (describes.sizes 0 x List.getElem?_cons_zero)
    · intro hsame
      refine ⟨records.count, fun i z hz => ?_⟩
      rcases i with _ | i
      · rw [List.getElem?_cons_zero, Option.some.injEq] at hz
        exact hz ▸ hy.trans hsame
      · exact hsizes (i + 1) z hz
  · exact absurd records.next_le (by simp)

/-- Where nothing was opened the whole aggregate is described. -/
theorem Describes.records {aggregate : Aggregate} (describes : m.Describes base aggregate offers) :
    m.Records base aggregate offers [] where
  count := describes.count
  next_le := Nat.zero_le 1
  sizes := describes.sizes

/-- What is opened in the place of an aggregate puts its size where the first one was,
    behind the count and in front of all others. -/
theorem Describes.replaced {aggregate : Aggregate} (describes : m.Describes base aggregate offers)
    (x : Offer) (genuine : x.segment.Genuine) (hlength : offers.length < 2 ^ 16) :
    (m.write (sizeAddress base 0)
      (Octets.ofWord16 (UInt16.ofNat x.segment.headers.payloadLength))).Records base aggregate
        offers [x] where
  count := by
    rw [countAt_writeSize _ _ 0 _ (by decide)]
    exact describes.count
  next_le := Nat.le_refl 1
  sizes := by
    refine describes.sizes.writeSize x genuine 0 rfl (fun i hi => ?_) ?_
    · rcases i with _ | i
      · exact absurd rfl hi
      · rw [List.singleton_append, List.getElem?_cons_succ, List.length_singleton,
          List.getElem?_drop, Nat.add_comm]
    · rw [List.length_append, List.length_drop, List.length_singleton]
      omega

end Metadata

/-- What is remembered of an aggregate whose sizes are written: where they go, and
    that all of them were written. -/
structure Pending.Logs (p : Pending) (base : UInt64) (offers : List Offer) (m : Metadata) :
    Prop where
  metadata : p.metadata = base
  logSizes : p.extras.logSizes = true
  cursor : p.sizesLogged.toNat = offers.length
  sizes : m.Lists base offers

/-- The sizes of an aggregate go to the area that its first offer names, and there
    are never more of them than segments. -/
structure Pending.Placed (p : Pending) (offers : List Offer) : Prop where
  metadata : ∃ x ∈ offers, p.metadata = x.policy.metadata
  cursor : p.sizesLogged.toNat ≤ p.segments

namespace Pending

variable {p : Pending} {base : UInt64} {offers : List Offer} {m : Metadata}

/-- Writing the size of one more segment lists it behind the others. -/
theorem Logs.sized (logs : p.Logs base offers m) (x : Offer) (genuine : x.segment.Genuine)
    (hroom : offers.length + 1 < 2 ^ 16) :
    p.sized.Logs base (offers ++ [x]) (p.writeSize x.segment.headers m) := by
  have hcursor := logs.cursor
  have hsized : p.sized = p.logged := if_pos logs.logSizes
  rw [hsized]
  constructor
  case metadata => exact logs.metadata
  case logSizes => exact logs.logSizes
  case cursor =>
    rw [List.length_append, List.length_singleton, ← hcursor]
    show (p.sizesLogged + 1).toNat = p.sizesLogged.toNat + 1
    rw [UInt16.toNat_add, show (1 : UInt16).toNat = 1 from rfl, Nat.mod_eq_of_lt (by omega)]
  case sizes =>
    rw [writeSize, if_pos logs.logSizes, logs.metadata, hcursor]
    refine logs.sizes.writeSize x genuine offers.length List.getElem?_concat_length ?_ ?_
    · intro i hi
      rcases Nat.lt_or_gt_of_ne hi with hlt | hgt
      · exact List.getElem?_append_left hlt
      · rw [List.getElem?_eq_none (Nat.le_of_lt hgt), List.getElem?_eq_none]
        rw [List.length_append, List.length_singleton]
        exact hgt
    · rw [List.length_append, List.length_singleton]
      exact hroom

/-- The size of a segment that is appended is still to be written. -/
theorem Logs.extended (logs : p.Logs base offers m) (segment : Segment) :
    (p.extended segment).Logs base offers m :=
  ⟨logs.metadata, logs.logSizes, logs.cursor, logs.sizes⟩

/-- A segment that opens an aggregate is the first that is listed. -/
theorem logs_opening (x : Offer) (timer : TimerId) (frame : FrameId)
    (genuine : x.segment.Genuine) (hlog : x.extras.logSizes = true) :
    (x.opening timer frame).sized.Logs x.policy.metadata [x]
      ((x.opening timer frame).writeSize x.segment.headers m) := by
  have hopening : (x.opening timer frame).Logs x.policy.metadata [] m :=
    ⟨rfl, hlog, rfl, fun _ _ hy => by cases hy⟩
  exact hopening.sized x genuine (by rw [List.length_nil]; decide)

theorem cursor_sized_le (p : Pending) : p.sized.sizesLogged.toNat ≤ p.sizesLogged.toNat + 1 := by
  rw [Pending.sized]
  split
  · show (p.sizesLogged + 1).toNat ≤ p.sizesLogged.toNat + 1
    rw [UInt16.toNat_add]
    exact Nat.mod_le _ _
  · exact Nat.le_succ _

theorem placed_opening (x : Offer) (timer : TimerId) (frame : FrameId) :
    (x.opening timer frame).sized.Placed [x] := by
  refine ⟨⟨x, List.mem_singleton_self x, metadata_sized _⟩, ?_⟩
  rw [segments_sized]
  exact cursor_sized_le _

/-- The next size goes behind those that were logged. -/
theorem Placed.extended (placed : p.Placed offers) (x : Offer) :
    (p.extended x.segment).sized.Placed (offers ++ [x]) := by
  rcases placed.metadata with ⟨y, hy, hmetadata⟩
  refine ⟨⟨y, List.mem_append_left _ hy, ?_⟩, ?_⟩
  · rw [metadata_sized]
    exact hmetadata
  · rw [segments_sized]
    exact Nat.le_trans (cursor_sized_le _) (Nat.succ_le_succ placed.cursor)

/-- What is written while an aggregate grows stays inside its area. -/
theorem agreeOn_writeSize (p : Pending) (h : Headers) (m : Metadata) {octets segments : Nat}
    (apart : Metadata.Apart base octets p.metadata (Metadata.areaLength segments))
    (hinside : p.sizesLogged.toNat < segments) :
    m.AgreeOn (p.writeSize h m) base octets := by
  have hcursor := p.sizesLogged.toNat_lt
  rw [writeSize]
  split
  · refine m.agreeOn_write apart _ _ ?_ ?_
    all_goals
      rw [Octets.length_ofWord16]
      simp only [Metadata.sizesOffset, Metadata.areaLength]
      omega
  · exact .refl m base octets

/-- So does what is written when it is closed. -/
theorem agreeOn_writeCount (p : Pending) (m : Metadata) {octets segments : Nat}
    (apart : Metadata.Apart base octets p.metadata (Metadata.areaLength segments)) :
    m.AgreeOn (p.writeCount m) base octets := by
  refine m.agreeOn_write apart _ _ ?_ ?_
  all_goals
    rw [Octets.length_ofWord32]
    simp only [Metadata.countOffset, Metadata.sizesOffset, Metadata.areaLength]
    omega

end Pending

/-- There are fewer offers than a size index can tell apart. -/
theorem Standing.Held.offers_lt {standing : Standing} (held : standing.Held) :
    standing.offers.length < 2 ^ 16 ∧
      ∀ p ∈ standing.pending, p.segments = standing.offers.length := by
  unfold Standing.Held at held
  rcases hp : standing.pending with _ | p
  all_goals rw [hp] at held
  · rw [show standing.offers = [] from held]
    exact ⟨by decide, fun _ h => by cases h⟩
  · rcases held with ⟨first, rest, stored, hmembers, merged⟩
    have hlength : standing.offers.length = p.segments := by
      rw [merged.segments_eq, ← List.length_cons, ← hmembers, Standing.members, List.length_map]
    have hle := Nat.le_trans merged.segments_le merged.length_eq.2
    rw [maxAggregateSize] at hle
    refine ⟨by omega, fun q hq => ?_⟩
    cases hq
    exact hlength.symm

namespace Course

variable {arrival : Option Offer} {before after : Standing}
  {handed : Option (Aggregate × List Offer)} {base : UInt64}

/-- What is pending on a flow has its sizes written to an area. -/
def Logged (base : UInt64) (standing : Standing) : Prop :=
  ∀ p ∈ standing.pending, p.Logs base standing.offers standing.metadata

/-- The count that is written is that of the aggregate that was closed, and leaves the
    sizes as they were. -/
theorem describes_writeCount {p : Pending} {offers : List Offer} {m m' : Metadata}
    (held : Standing.Held ⟨some p, offers, m'⟩) (aggregate : Aggregate)
    (closing : Closing aggregate (offers.map Offer.segment)) (logs : p.Logs base offers m) :
    (p.writeCount m).Describes base aggregate offers := by
  have hlt : offers.length < 2 ^ 16 := held.offers_lt.1
  have hsegments : p.segments = offers.length := held.offers_lt.2 p rfl
  rw [Pending.writeCount, logs.metadata]
  constructor
  case count =>
    rw [Metadata.countAt_writeCount, closing.segments_eq, List.length_map, hsegments]
    exact UInt32.toNat_ofNat_of_lt' (by simp only [UInt32.size]; omega)
  case sizes => exact logs.sizes.writeCount _ hlt

/-- A call keeps the sizes of what is pending listed, and leaves the count and the
    sizes of what it hands out, unless it opens the next aggregate in their
    place. -/
theorem logs (course : Course arrival before after handed) (held : before.Held)
    (genuine : ∀ x ∈ arrival, x.segment.Genuine)
    (harrival : ∀ x ∈ arrival, x.policy.metadata = base ∧ x.extras.logSizes = true)
    (logged : Logged base before) :
    Logged base after ∧
      ∀ e ∈ handed, after.metadata.Records base e.1 e.2 after.offers := by
  have hnone : ∀ m, Logged base ⟨none, [], m⟩ := fun _ _ h => by cases h
  -- Where an aggregate is closed its count is written first; only a call that also opens the next
  -- one writes behind it, and over the first size.
  cases course with
  | idle | dropped => exact ⟨hnone _, fun _ he => by cases he⟩
  | opened x m timer frame opens =>
      rcases harrival x rfl with ⟨rfl, hlog⟩
      refine ⟨fun q hq => ?_, fun _ he => by cases he⟩
      cases hq
      exact Pending.logs_opening x timer frame (genuine x rfl) hlog
  | merged x p offers m verdict =>
      have hroom := (held.extended x (genuine x rfl) (Or.inl verdict)).offers_lt.1
      rw [List.length_append, List.length_singleton] at hroom
      refine ⟨fun q hq => ?_, fun _ he => by cases he⟩
      cases hq
      exact ((logged p rfl).extended x.segment).sized x (genuine x rfl) hroom
  | mergedClosing x p offers m aggregate verdict closing =>
      have hheld := held.extended x (genuine x rfl) (Or.inr verdict)
      have hroom := hheld.offers_lt.1
      have hlogs := ((logged p rfl).extended x.segment).sized x (genuine x rfl)
        (by rwa [List.length_append, List.length_singleton] at hroom)
      refine ⟨hnone _, fun e he => ?_⟩
      rcases Option.map_eq_some_iff.mp he with ⟨a, ha, rfl⟩
      exact (describes_writeCount hheld a (closing a ha) hlogs).records
  | closed arrival p offers m aggregate apart closing =>
      refine ⟨hnone _, fun e he => ?_⟩
      rcases Option.map_eq_some_iff.mp he with ⟨a, ha, rfl⟩
      exact (describes_writeCount held a (closing a ha) (logged p rfl)).records
  | closedOpening x p offers m aggregate timer frame apart opens new closing =>
      rcases harrival x rfl with ⟨rfl, hlog⟩
      refine ⟨fun q hq => ?_, fun e he => ?_⟩
      · cases hq
        exact Pending.logs_opening x timer frame (genuine x rfl) hlog
      · rcases Option.map_eq_some_iff.mp he with ⟨a, ha, rfl⟩
        have hdescribes := describes_writeCount held a (closing a ha) (logged p rfl)
        have hwrites : (x.opening timer frame).writeSize x.segment.headers (p.writeCount m)
            = (p.writeCount m).write (Metadata.sizeAddress x.policy.metadata 0)
                (Octets.ofWord16 (UInt16.ofNat x.segment.headers.payloadLength)) := if_pos hlog
        simp only [hwrites]
        exact hdescribes.replaced x (genuine x rfl) held.offers_lt.1

/-- What is pending on a flow has room left in its area. -/
def Contained (pending : Option Pending) (offers : List Offer) : Prop :=
  Bounded pending offers ∧ ∀ p ∈ pending, p.Placed offers

theorem contained_none (offers : List Offer) : Contained none offers :=
  ⟨fun _ h => (Option.not_mem_none _ h).elim, fun _ h => (Option.not_mem_none _ h).elim⟩

theorem contained (course : Course arrival before after handed) (held : before.Held)
    (genuine : ∀ x ∈ arrival, x.segment.Genuine)
    (hcontained : Contained before.pending before.offers) :
    Contained after.pending after.offers := by
  refine ⟨(course.limited held genuine hcontained.1).1, ?_⟩
  cases course with
  | idle | dropped | mergedClosing | closed => exact fun _ h => by cases h
  | opened x m timer frame
  | closedOpening x p offers m aggregate timer frame =>
      intro q hq
      cases hq
      exact Pending.placed_opening x timer frame
  | merged x p offers m verdict =>
      intro q hq
      cases hq
      exact (hcontained.2 p rfl).extended x

/-- A call leaves alone what lies apart from all areas of its flow. -/
theorem agreeOn {octets : Nat} (course : Course arrival before after handed)
    (hcontained : Contained before.pending before.offers)
    (apart : ∀ x ∈ before.offers ++ arrival.toList, ∀ y ∈ before.offers ++ arrival.toList,
      Metadata.Apart base octets x.policy.metadata (Metadata.areaLength y.policy.segmentLimit)) :
    before.metadata.AgreeOn after.metadata base octets := by
  -- What is pending has room in the area that it was given.
  have hpending : ∀ p ∈ before.pending, ∃ segments, p.sizesLogged.toNat < segments ∧
      Metadata.Apart base octets p.metadata (Metadata.areaLength segments) := by
    intro p hp
    rcases hcontained.1 p hp with ⟨y, hlast, below⟩
    rcases (hcontained.2 p hp).metadata with ⟨x, hx, hmetadata⟩
    refine ⟨y.policy.segmentLimit, Nat.lt_of_le_of_lt (hcontained.2 p hp).cursor below.segments, ?_⟩
    rw [hmetadata]
    exact apart x (List.mem_append_left _ hx) y
      (List.mem_append_left _ (List.mem_of_getLast? hlast))
  have hopening : ∀ (x : Offer) (timer : TimerId) (frame : FrameId) (m : Metadata),
      arrival = some x → x.segment.canOpen x.policy = true →
      m.AgreeOn ((x.opening timer frame).writeSize x.segment.headers m) base octets := by
    intro x timer frame m hx opens
    have hmem : x ∈ before.offers ++ arrival.toList := by
      rw [hx]
      exact List.mem_append_right _ (List.mem_singleton_self x)
    simp only [Segment.canOpen, decide_eq_true_eq] at opens
    exact Pending.agreeOn_writeSize _ _ m (apart x hmem x hmem)
      (Nat.lt_of_le_of_lt (Nat.zero_le 1) opens.2.2.1)
  cases course with
  | idle | dropped => exact .refl _ base octets
  | opened x m timer frame opens => exact hopening x timer frame m rfl opens
  | merged x p offers m verdict =>
      rcases hpending p rfl with ⟨_, hinside, hapart⟩
      exact (p.extended x.segment).agreeOn_writeSize _ m hapart hinside
  | mergedClosing x p offers m aggregate verdict closing =>
      rcases hpending p rfl with ⟨_, hinside, hapart⟩
      have hsame : (p.extended x.segment).sized.metadata = p.metadata :=
        (p.extended x.segment).metadata_sized
      exact ((p.extended x.segment).agreeOn_writeSize x.segment.headers m hapart hinside).trans
        (Pending.agreeOn_writeCount _ _ (hsame.symm ▸ hapart))
  | closed arrival p offers m aggregate apart closing =>
      rcases hpending p rfl with ⟨_, _, hapart⟩
      exact p.agreeOn_writeCount m hapart
  | closedOpening x p offers m aggregate timer frame apart opens new closing =>
      rcases hpending p rfl with ⟨_, _, hapart⟩
      exact (p.agreeOn_writeCount m hapart).trans (hopening x timer frame _ rfl opens)

end Course

/-- All calls on a flow have the same policy and ask for the sizes, and the area that
    it names lies apart from the areas of the other flows. -/
structure Secluded (trials : List Trial) (flow : UInt64) (policy : Policy) : Prop where
  uniform : ∀ x, Offered trials flow x → x.policy = policy ∧ x.extras.logSizes = true
  apart : ∀ g, g ≠ flow → ∀ x y, Offered trials g x → Offered trials g y →
    Metadata.Apart policy.metadata (Metadata.areaLength policy.segmentLimit)
      x.policy.metadata (Metadata.areaLength y.policy.segmentLimit)

namespace Dossier

variable {d : Dossier} {trials : List Trial} {flow : UInt64} {policy : Policy}

/-- All flows have room left in their areas, and the area of this one has what was
    pending on it, and of what it handed out what was in the area then. -/
structure Recording (d : Dossier) (trials : List Trial) (flow : UInt64) (policy : Policy) :
    Prop where
  contained : ∀ g, Course.Contained (d.world.engine.pending g) (d.offers g) ∧
    ∀ x ∈ d.offers g, Offered trials g x
  logged : Course.Logged policy.metadata (d.standing flow)
  records : ∀ c ∈ d.closures, c.flow = flow →
    c.metadata.Records policy.metadata c.aggregate c.offers c.next

/-- What a call on another flow writes is not seen in the area. -/
theorem Recording.elsewhere (recording : d.Recording trials flow policy) (kept : d.roster.Kept)
    (secluded : Secluded trials flow policy) {trial : Trial} {g : UInt64}
    {handed : Option (Aggregate × List Offer)} (calls : d.Calls trial g handed)
    (htrial : trial ∈ trials) (hg : g ≠ flow) :
    Course.Logged policy.metadata ((d.endure trial).standing flow) := by
  rcases calls.others flow (Ne.symm hg) with ⟨hpending, hoffers, _⟩
  have hoffered : ∀ x ∈ d.offers g ++ (trial.offer? g).toList, Offered trials g x := by
    intro x hx
    rcases List.mem_append.mp hx with hold | hnew
    · exact (recording.contained g).2 x hold
    · exact ⟨trial, htrial, Option.mem_toList.mp hnew⟩
  have hagree := calls.course.agreeOn (recording.contained g).1
    fun x hx y hy => secluded.apart g hg x y (hoffered x hx) (hoffered y hy)
  intro p hp
  simp only [standing, hpending, hoffers] at hp ⊢
  have hlogs := recording.logged p hp
  have hlength := (standing_held kept flow).offers_lt
  have hroom : (d.offers flow).length ≤ policy.segmentLimit := by
    rcases (recording.contained flow).1.1 p hp with ⟨x, hlast, below⟩
    have hx := (recording.contained flow).2 x (List.mem_of_getLast? hlast)
    have hsegments := below.segments
    rw [(secluded.uniform x hx).1, hlength.2 p hp] at hsegments
    exact Nat.le_of_lt hsegments
  exact ⟨hlogs.metadata, hlogs.logSizes, hlogs.cursor,
    hlogs.sizes.of_agreeOn hagree hroom hlength.1⟩

/-- What is pending in a secluded flow has its sizes logged, and what was closed was
    recorded, in every run. -/
theorem recording_run (setup : Setup) (trials : List Trial) (secluded : Secluded trials flow policy)
    (hstores : (run setup trials).world.stores < 2 ^ 64) :
    (run setup trials).Recording trials flow policy := by
  have huniform : ∀ trial ∈ trials, ∀ x ∈ trial.offer? flow,
      x.policy.metadata = policy.metadata ∧ x.extras.logSizes = true := by
    intro trial htrial x hx
    rcases secluded.uniform x ⟨trial, htrial, hx⟩ with ⟨rfl, hlog⟩
    exact ⟨rfl, hlog⟩
  refine run_induction_kept setup trials (fun d => d.Recording trials flow policy) hstores ?_ ?_
  · constructor
    case contained =>
      exact fun _ => ⟨Course.contained_none [], fun _ h => absurd h List.not_mem_nil⟩
    case logged => exact fun _ h => by cases h
    case records => exact fun _ h => absurd h List.not_mem_nil
  intro d trial htrial kept hlt recording
  rcases endure_cases kept hlt trial with hidles | ⟨g, handed, hcalls⟩
  · constructor
    case contained =>
      exact hidles.all (fun g pending offers => Course.Contained pending offers ∧
        ∀ x ∈ offers, Offered trials g x) recording.contained
    case logged => exact (hidles.standing flow).symm ▸ recording.logged
    case records => exact hidles.closures.symm ▸ recording.records
  have hgenuine : ∀ x ∈ trial.offer? g, x.segment.Genuine :=
    fun x hx => genuine_of_offer? trial g x hx
  have hheld := standing_held kept g
  have hcourse := hcalls.course
  constructor
  case contained =>
    refine hcalls.all (fun g pending offers => Course.Contained pending offers ∧
      ∀ x ∈ offers, Offered trials g x) recording.contained ⟨?_, fun x hx => ?_⟩
    · exact hcourse.contained hheld hgenuine (recording.contained g).1
    · rcases List.mem_append.mp (hcourse.offers_subset hx) with hold | hnew
      · exact (recording.contained g).2 x hold
      · exact ⟨trial, htrial, Option.mem_toList.mp hnew⟩
  case logged =>
    -- A call on another flow writes in its own area, which has no address in common with this
    -- one.
    by_cases hg : g = flow
    · subst hg
      exact (hcourse.logs hheld hgenuine (huniform trial htrial) recording.logged).1
    · exact recording.elsewhere kept secluded hcalls htrial hg
  case records =>
    rw [hcalls.closures]
    intro c hc hflow
    rcases List.mem_append.mp hc with hold | hnew
    · exact recording.records c hold hflow
    · rcases List.mem_map.mp hnew with ⟨e, he, rfl⟩
      obtain rfl : g = flow := hflow
      exact (hcourse.logs hheld hgenuine (huniform trial htrial) recording.logged).2 e
        (Option.mem_toList.mp he)

end Dossier

/-- In every run, whatever storage, timers and the other flows do, the area of a flow
    has the count of an aggregate that is handed out and its sizes, but for the first
    one if the same call opened the next aggregate with a segment of another size. -/
theorem metadata_describes_iff (setup : Setup) (trials : List Trial) (flow : UInt64)
    (policy : Policy) (secluded : Secluded trials flow policy)
    (hstores : (Dossier.run setup trials).world.stores < 2 ^ 64) :
    (Dossier.run setup trials).Accounts ∧
      ∀ c ∈ (Dossier.run setup trials).closures, c.flow = flow →
        c.metadata.Records policy.metadata c.aggregate c.offers c.next ∧
        (c.metadata.Describes policy.metadata c.aggregate c.offers ↔
          ∀ x ∈ c.offers.head?, ∀ y ∈ c.next.head?,
            y.segment.payload.length = x.segment.payload.length) := by
  refine ⟨Dossier.accounts_run setup trials hstores, fun c hc hflow => ?_⟩
  have hrecords := (Dossier.recording_run setup trials secluded hstores).records c hc hflow
  exact ⟨hrecords, hrecords.describes_iff⟩

/-- The usual policy, with an area that lies far behind the usual one. -/
def farPolicy : Policy :=
  { plainPolicy with metadata := 1000 }

/-- Two segments of one flow and one of another, whose area lies far behind. -/
def listed : List Trial := [
  .step (.offer 7 (plainFrame 1 [1, 2]) plainPolicy { logSizes := true }),
  .step (.offer 8 (plainFrame 1 [4, 5, 6]) farPolicy {}),
  .step (.offer 7 (plainFrame 3 [3]) plainPolicy { logSizes := true }),
  .step (.flush 7)
]

theorem metadata_describes_iff_listed :
    Secluded listed 7 plainPolicy ∧ (Dossier.run {} listed).world.stores < 2 ^ 64 ∧
      ∃ c ∈ (Dossier.run {} listed).closures, c.flow = 7 ∧ c.aggregate.segments = 2 ∧
        c.metadata.Describes plainPolicy.metadata c.aggregate c.offers := by
  have huniform : ∀ trial ∈ listed, ∀ x ∈ trial.offer? 7,
      x.policy = plainPolicy ∧ x.extras.logSizes = true := by decide +kernel
  have hother : ∀ g, g ≠ 7 → ∀ x, Offered listed g x → x.policy = farPolicy := by
    rintro g hg x ⟨trial, htrial, hx⟩
    simp only [listed, List.mem_cons, List.not_mem_nil, or_false] at htrial
    rcases htrial with rfl | rfl | rfl | rfl
    · rw [Trial.offer?, if_neg (Ne.symm hg)] at hx
      cases hx
    · rw [Trial.offer?] at hx
      split at hx
      · rcases Option.map_eq_some_iff.mp hx with ⟨_, _, rfl⟩
        rfl
      · cases hx
    · rw [Trial.offer?, if_neg (Ne.symm hg)] at hx
      cases hx
    · cases hx
  have hsecluded : Secluded listed 7 plainPolicy := by
    refine ⟨?_, fun g hg x y hx hy => ?_⟩
    · rintro x ⟨trial, htrial, hx⟩
      exact huniform trial htrial x hx
    · rw [hother g hg x hx, hother g hg y hy]
      exact Metadata.apart_of_le (by decide) (by decide)
  have hstores : (Dossier.run {} listed).world.stores < 2 ^ 64 := by decide +kernel
  have hclosure : ((Dossier.run {} listed).closures.any fun c =>
      decide (c.flow = 7 ∧ c.aggregate.segments = 2 ∧ c.next = [])) = true := by decide +kernel
  rcases List.any_eq_true.mp hclosure with ⟨c, hc, hfields⟩
  rcases of_decide_eq_true hfields with ⟨hflow, hsegments, hnext⟩
  refine ⟨hsecluded, hstores, c, hc, hflow, hsegments, ?_⟩
  refine ((metadata_describes_iff {} listed 7 plainPolicy hsecluded hstores).2 c hc hflow).2.mpr ?_
  rw [hnext]
  exact fun _ _ _ hy => by cases hy

/-- Two segments that do not follow each other, the second of which is larger. -/
def replaced : List Trial := [
  .step (.offer 7 (plainFrame 1 [1]) plainPolicy { logSizes := true }),
  .step (.offer 7 (plainFrame 9 [2, 3]) plainPolicy { logSizes := true })
]

/-- The first segment comes out alone and the area has a count of one, but the size
    behind it is that of the second, which is still pending. -/
theorem not_describes_replaced :
    Secluded replaced 7 plainPolicy ∧ (Dossier.run {} replaced).world.stores < 2 ^ 64 ∧
      ∃ c ∈ (Dossier.run {} replaced).closures, c.flow = 7 ∧ c.aggregate.segments = 1 ∧
        c.offers.map (fun x => x.segment.payload) = [[1]] ∧
        c.metadata.countAt plainPolicy.metadata = 1 ∧
        c.metadata.sizeAt plainPolicy.metadata 0 = 2 ∧
        ¬ c.metadata.Describes plainPolicy.metadata c.aggregate c.offers := by
  have huniform : ∀ trial ∈ replaced, ∀ x ∈ trial.offer? 7,
      x.policy = plainPolicy ∧ x.extras.logSizes = true := by decide +kernel
  have hsecluded : Secluded replaced 7 plainPolicy := by
    refine ⟨?_, ?_⟩
    · rintro x ⟨trial, htrial, hx⟩
      exact huniform trial htrial x hx
    · -- There are no other flows.
      rintro g hg x _ ⟨trial, htrial, hx⟩
      simp only [replaced, List.mem_cons, List.not_mem_nil, or_false] at htrial
      rcases htrial with rfl | rfl <;>
        · rw [Trial.offer?, if_neg (Ne.symm hg)] at hx
          cases hx
  have hclosure : ((Dossier.run {} replaced).closures.any fun c =>
      decide (c.flow = 7 ∧ c.aggregate.segments = 1 ∧
        c.offers.map (fun x => x.segment.payload) = [[1]] ∧
        c.metadata.countAt plainPolicy.metadata = 1 ∧
        c.metadata.sizeAt plainPolicy.metadata 0 = 2)) = true := by decide +kernel
  rcases List.any_eq_true.mp hclosure with ⟨c, hc, hfields⟩
  rcases of_decide_eq_true hfields with ⟨hflow, hsegments, hpayloads, hcount, hsize⟩
  refine ⟨hsecluded, by decide +kernel, c, hc, hflow, hsegments, hpayloads, hcount, hsize, ?_⟩
  intro describes
  rcases hoffers : c.offers with _ | ⟨x, rest⟩
  all_goals
    rw [hoffers] at hpayloads
    simp only [List.map_nil, List.map_cons, List.cons.injEq, reduceCtorEq] at hpayloads
  have hfirst := describes.sizes 0 x (by rw [hoffers, List.getElem?_cons_zero])
  rw [hsize, hpayloads.1] at hfirst
  exact absurd hfirst (by decide)

end ReceiveOffload
