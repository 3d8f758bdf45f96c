import ReceiveOffload.Proofs.Announcements
import ReceiveOffload.Proofs.HeaderBits
import ReceiveOffload.Proofs.Limits

/-!
# Shared Headers

Which headers an aggregate is handed on with is decided by its first segment. The
segments behind it have to be content with that, so what the engine promises is that
they have the same headers, as far as it looks. A segment that does not is closed
around: the aggregate goes out without it, and it opens the next one or goes on its
own.

The promise is made for a flow whose segments all go the same way. The engine does not
look at ports, addresses or link headers, and is told by the caller which flow a
segment belongs to.

As far as it looks is not all the way. `not_shared_loose` has three pairs of segments,
each of which is merged although the headers differ in one of the three groups of bits
that nothing looks at.

## Main definitions

* `Segment.Shares`: The headers of a segment are those of the first, as far as anything
  looks.
* `Dossier.ClosesAround`: A trial closes an aggregate around an offer.
* `Dossier.Shared`: What goes out under one segment's headers shares them.
* `GoesUnder`: A segment goes out under headers that are not its own.

## Theorems

* `Course.closes`: A segment with other headers is not merged.
* `headers_shared`: In every run.
* `not_shared_loose`: Bits that nothing looks at are not shared.
-/

namespace ReceiveOffload

/-- The headers of the second segment are those of the first, but for the bits that
    are each segment's own and those that nothing looks at. -/
def Segment.Shares (a b : Segment) : Prop :=
  a.SameBut (fun j => a.headers.ownBits j ||| a.headers.looseBits j) b

/-- All offers could be merged behind the first. -/
def AllAlike (offers : List Offer) : Prop :=
  ∀ first ∈ offers.head?, ∀ x ∈ offers, first.segment.Alike x.segment

theorem AllAlike.shares {offers : List Offer} (alike : AllAlike offers)
    (path : ∀ x ∈ offers, ∀ y ∈ offers, x.segment.SamePath y.segment) :
    ∀ first ∈ offers.head?, ∀ x ∈ offers, first.segment.Shares x.segment := by
  intro first hfirst x hx
  have hmem := List.mem_of_mem_head? hfirst
  exact (alike first hfirst x hx).sameBut (alike first hfirst first hmem) (path first hmem x hx)

/-- What an aggregate was merged of is alike. -/
theorem Standing.Held.allAlike {standing : Standing} (held : standing.Held) :
    AllAlike standing.offers := by
  intro first hfirst x hx
  unfold Standing.Held at held
  rcases hp : standing.pending with _ | p
  all_goals rw [hp] at held
  · rw [show standing.offers = [] from held] at hx
    cases hx
  · rcases held with ⟨segment, rest, stored, hmembers, merged⟩
    have hhead : segment = first.segment := by
      have hboth := congrArg List.head? hmembers
      rw [Standing.members, List.head?_map, Option.mem_def.mp hfirst] at hboth
      exact (Option.some.inj hboth).symm
    rw [← hhead]
    refine merged.alike x.segment ?_
    rw [← hmembers]
    exact List.mem_map_of_mem hx

namespace Course

variable {arrival : Option Offer} {before after : Standing}
  {handed : Option (Aggregate × List Offer)}

/-- What is handed out was alike too. -/
theorem handed_allAlike (course : Course arrival before after handed) (held : before.Held)
    (genuine : ∀ x ∈ arrival, x.segment.Genuine) : ∀ e ∈ handed, AllAlike e.2 := by
  cases course with
  | idle | opened | merged | dropped => exact fun _ he => by cases he
  | mergedClosing x p offers m aggregate verdict closing =>
      intro e he
      rcases Option.map_eq_some_iff.mp he with ⟨a, ha, rfl⟩
      exact (held.extended x (genuine x rfl) (Or.inr verdict)).allAlike
  | closed arrival p offers m aggregate apart closing
  | closedOpening x p offers m aggregate timer frame apart opens new closing =>
      intro e he
      rcases Option.map_eq_some_iff.mp he with ⟨a, ha, rfl⟩
      exact held.allAlike

/-- A segment that is not like the first is not merged. -/
theorem closes {x : Offer} {p : Pending} {offers : List Offer} {m : Metadata}
    (course : Course (some x) ⟨some p, offers, m⟩ after handed)
    (hapart : ¬ (p.verdict x.segment x.policy = .merge
      ∨ p.verdict x.segment x.policy = .mergeThenClose)) :
    (after.offers = [] ∨ after.offers = [x]) ∧ ∀ e ∈ handed, e.2 = offers := by
  cases course with
  | merged x p offers m verdict => exact absurd (Or.inl verdict) hapart
  | dropped x p offers m appends => exact absurd appends hapart
  | mergedClosing x p offers m aggregate verdict closing => exact absurd (Or.inr verdict) hapart
  | closed arrival p offers m aggregate apart closing =>
      refine ⟨Or.inl rfl, fun e he => ?_⟩
      rcases Option.map_eq_some_iff.mp he with ⟨a, ha, rfl⟩
      rfl
  | closedOpening x p offers m aggregate timer frame apart opens new closing =>
      refine ⟨Or.inr rfl, fun e he => ?_⟩
      rcases Option.map_eq_some_iff.mp he with ⟨a, ha, rfl⟩
      rfl

end Course

/-- A verdict appends only what is like the first. -/
theorem Standing.Held.not_appends {p : Pending} {offers : List Offer} {m : Metadata} (x : Offer)
    (held : Standing.Held ⟨some p, offers, m⟩) (genuine : x.segment.Genuine) (first : Offer)
    (hfirst : first ∈ offers.head?) (path : first.segment.SamePath x.segment)
    (hother : ¬ first.segment.Shares x.segment) :
    ¬ (p.verdict x.segment x.policy = .merge
      ∨ p.verdict x.segment x.policy = .mergeThenClose) := by
  intro appends
  have alike := (held.extended x genuine appends).allAlike
  have hhead : first ∈ (offers ++ [x]).head? := by
    rw [List.head?_append, Option.mem_def.mp hfirst]
    rfl
  have hself := alike first hhead first (List.mem_of_mem_head? hhead)
  exact hother ((alike first hhead x (List.mem_append_right _ (List.mem_singleton_self x))).sameBut
    hself path)

namespace Services

/-- An aggregate that is closed around a segment is handed out, unless storage refuses
    to give it out. -/
theorem onPending_handed (s : Services) (flow : UInt64) (p : Pending) (segment : Segment)
    (policy : Policy) (extras : Extras) {members : List Segment} (holds : s.Holds (some p) members)
    (htake : s.frames.outages.take.call.1 = false)
    (hapart : ¬ (p.verdict segment policy = .merge ∨ p.verdict segment policy = .mergeThenClose)) :
    (s.onPending flow p segment policy extras).output.aggregate.isSome = true := by
  have hclosed := closeAggregate_permitted holds htake
  rcases s.onPending_cases flow p segment policy extras with
    ⟨verdict, _⟩ | ⟨verdict, _⟩ | ⟨_, _, s', hframes, _, _, ⟨_, hturn⟩ | ⟨_, hturn⟩⟩
  · exact absurd (Or.inl verdict) hapart
  · exact absurd (Or.inr verdict) hapart
  · rw [hturn, aggregate_closeThenOpen, (closeAggregate_congr p hframes).1]
    exact hclosed
  · rw [hturn, aggregate_closeThenPass, (closeAggregate_congr p hframes).1]
    exact hclosed

end Services

namespace Dossier

variable {d : Dossier}

/-- A trial closes the aggregate of a flow around an offer: the aggregate is handed out
    without it, unless storage refuses to give it out, and what is pending then is
    made of the offer alone. -/
structure ClosesAround (d : Dossier) (trial : Trial) (flow : UInt64) (x : Offer) : Prop where
  next : (d.endure trial).offers flow = [] ∨ (d.endure trial).offers flow = [x]
  only : ∀ c ∈ (d.endure trial).closures, c ∈ d.closures ∨
    c.flow = flow ∧ c.offers = d.offers flow
  handed : d.world.engine.services.frames.outages.take.call.1 = false →
    ∃ c, (d.endure trial).closures = d.closures ++ [c] ∧ c.flow = flow ∧
      c.offers = d.offers flow

/-- A segment with other headers than the first is closed around. -/
theorem closesAround (kept : d.roster.Kept) (hstores : d.world.stores < 2 ^ 64) (trial : Trial)
    (flow : UInt64) (x first : Offer) (hx : trial.offer? flow = some x)
    (hfirst : first ∈ (d.offers flow).head?) (path : first.segment.SamePath x.segment)
    (hother : ¬ first.segment.Shares x.segment) : d.ClosesAround trial flow x := by
  rcases trial.exists_of_offer? flow x hx with ⟨frame, hsegment, rfl⟩
  rcases calls_offer kept hstores flow frame x.policy x.extras x.segment hsegment with
    ⟨handed, hcalls, haggregate⟩
  have hheld := standing_held kept flow
  have hholds := kept.held flow
  have hcourse := hcalls.course
  rw [hx] at hcourse
  rw [standing] at hheld hcourse
  rcases hp : d.world.engine.pending flow with _ | p
  · -- There is a first offer, so something is pending.
    rw [hp] at hheld
    rw [show d.offers flow = [] from hheld] at hfirst
    cases hfirst
  rw [hp] at hheld hcourse
  rw [show d.roster.world.engine.pending flow = _ from hp] at hholds
  have hapart := hheld.not_appends x (genuine_of_offer? _ flow x hx) first hfirst path hother
  rcases hcourse.closes hapart with ⟨hnext, hmade⟩
  constructor
  case next => exact hnext
  case only =>
    intro c hc
    rw [hcalls.closures] at hc
    rcases List.mem_append.mp hc with hold | hnew
    · exact Or.inl hold
    · rcases List.mem_map.mp hnew with ⟨e, he, rfl⟩
      exact Or.inr ⟨rfl, hmade e (Option.mem_toList.mp he)⟩
  case handed =>
    intro htake
    rcases d.world.engine.offer_accepted flow frame x.policy x.extras x.segment hsegment with
      ⟨houtput, _, _⟩
    have hsome := Services.onPending_handed d.world.engine.services flow p x.segment x.policy
      x.extras hholds htake hapart
    simp only [Engine.turn, hp] at houtput
    rw [← houtput, haggregate, Option.isSome_map] at hsome
    rcases Option.isSome_iff_exists.mp hsome with ⟨e, rfl⟩
    exact ⟨_, hcalls.closures, rfl, hmade e rfl⟩

/-- Whatever goes under the headers of a first segment shares them, and what does not
    share them is closed around. -/
structure Shared (d : Dossier) (flow : UInt64) : Prop where
  pending : ∀ first ∈ (d.offers flow).head?, ∀ x ∈ d.offers flow,
    first.segment.Shares x.segment
  handed : ∀ c ∈ d.closures, c.flow = flow → ∀ first ∈ c.offers.head?, ∀ x ∈ c.offers,
    first.segment.Shares x.segment
  closes : ∀ trial x, trial.offer? flow = some x → ∀ first ∈ (d.offers flow).head?,
    first.segment.SamePath x.segment → ¬ first.segment.Shares x.segment →
    d.ClosesAround trial flow x

end Dossier

/-- In every run, whatever storage, timers and the other flows do, the segments of an
    aggregate share the headers of its first segment, as long as all segments of the
    flow go the same way. -/
theorem headers_shared (setup : Setup) (trials : List Trial) (flow : UInt64)
    (path : ∀ x y, Offered trials flow x → Offered trials flow y → x.segment.SamePath y.segment)
    (hstores : (Dossier.run setup trials).world.stores < 2 ^ 64) :
    (Dossier.run setup trials).Accounts ∧ (Dossier.run setup trials).Shared flow := by
  have hkept := Dossier.kept_run setup trials hstores
  rcases Dossier.closures_run setup trials hstores with ⟨hoffers, hclosures⟩
  have halike := (Dossier.run_courses setup trials (fun _ _ _ => True)
    (fun _ _ offers => AllAlike offers) hstores (fun _ => trivial)
    (fun _ _ _ _ _ harrival held _ course =>
      ⟨trivial, course.handed_allAlike held fun x hx => (harrival x hx).1⟩)).2
  refine ⟨Dossier.accounts_run setup trials hstores, ?_, ?_, ?_⟩
  · exact (Dossier.standing_held hkept flow).allAlike.shares fun x hx y hy =>
      path x y (hoffers flow x hx) (hoffers flow y hy)
  · rintro c hc rfl
    exact (halike c hc).shares fun x hx y hy =>
      path x y ((hclosures c hc).2 x hx) ((hclosures c hc).2 y hy)
  · intro trial x hx first hfirst
    exact Dossier.closesAround hkept hstores trial flow x first hx hfirst

/-- A frame like the plain ones, on its last hop. -/
def lastHopFrame (seq : UInt8) (payload : Octets) : Frame where
  octets := (plainFrame seq payload).octets.set 8 1

/-- Two segments that are merged. -/
def steady : List Trial := [
  .step (.offer 7 (plainFrame 1 [1, 2]) plainPolicy {}),
  .step (.offer 7 (plainFrame 3 [3]) plainPolicy {})
]

theorem headers_shared_steady :
    (∀ x y, Offered steady 7 x → Offered steady 7 y → x.segment.SamePath y.segment) ∧
      (Dossier.run {} steady).world.stores < 2 ^ 64 ∧ (Dossier.run {} steady).Shared 7 ∧
      ((Dossier.run {} steady).offers 7).length = 2 ∧
      ∃ x, (Dossier.run {} steady).ClosesAround
        (.step (.offer 7 (lastHopFrame 4 [4]) plainPolicy {})) 7 x := by
  have hpath : ∀ x y, Offered steady 7 x → Offered steady 7 y →
      x.segment.SamePath y.segment := by
    have hall : ∀ trial ∈ steady, ∀ trial' ∈ steady, ∀ x ∈ trial.offer? 7, ∀ y ∈ trial'.offer? 7,
        x.segment.SamePath y.segment := by decide +kernel
    rintro x y ⟨trial, htrial, hx⟩ ⟨trial', htrial', hy⟩
    exact hall trial htrial trial' htrial' x hx y hy
  have hstores : (Dossier.run {} steady).world.stores < 2 ^ 64 := by decide +kernel
  have hshared := (headers_shared {} steady 7 hpath hstores).2
  -- The next segment has the number that is expected, but another hop limit.
  have hother : ∃ x ∈ (Trial.step (.offer 7 (lastHopFrame 4 [4]) plainPolicy {})).offer? 7,
      ∃ first ∈ ((Dossier.run {} steady).offers 7).head?,
        first.segment.SamePath x.segment ∧ ¬ first.segment.SameBut
          (fun j => first.segment.headers.ownBits j ||| first.segment.headers.looseBits j)
          x.segment := by decide +kernel
  rcases hother with ⟨x, hx, first, hfirst, hsame, hdiffers⟩
  exact ⟨hpath, hstores, hshared, by decide +kernel, x,
    hshared.closes _ x hx first hfirst hsame hdiffers⟩

/-- A version 4 frame with four octets of options. -/
def optionedFrame (seq : UInt8) (options payload : Octets) : Frame where
  octets := [0x46, 0, 0, UInt8.ofNat (44 + payload.length), 0, 1, 0x40, 0, 64, 6, 0, 0,
    10, 0, 0, 1, 10, 0, 0, 2] ++ options ++ [0x1F, 0x90, 0x23, 0x28, 0, 0, 0, seq, 0, 0, 0, 1,
    0x50, 0x10, 0x10, 0, 0, 0, 0, 0] ++ payload

/-- A version 6 frame with a flow label. -/
def labelledFrame (seq label : UInt8) (payload : Octets) : Frame where
  octets := [0x60, 0, 0, label, 0, UInt8.ofNat (20 + payload.length), 6, 64,
    0xFD, 0, 0, 0, 0, 0, 0, 0, 0, 0, 0, 0, 0, 0, 0, 1,
    0xFD, 0, 0, 0, 0, 0, 0, 0, 0, 0, 0, 0, 0, 0, 0, 2,
    0x1F, 0x90, 0x23, 0x28, 0, 0, 0, seq, 0, 0, 0, 1, 0x50, 0x10, 0x10, 0, 0, 0, 0, 0] ++ payload

/-- A frame like the plain ones, with reserved bits next to the header length. -/
def reservedFrame (seq reserved : UInt8) (payload : Octets) : Frame where
  octets := (plainFrame seq payload).octets.set 32 (0x50 ||| reserved)

/-- The two segments, closed on request. -/
def pairTrials (first second : Frame) : List Trial := [
  .step (.offer 7 first plainPolicy {}),
  .step (.offer 7 second plainPolicy {}),
  .step (.flush 7)
]

/-- Two segments go the same way, and both go out under the headers of the first,
    although the second has bits in its headers that are other ones and not its own. -/
def GoesUnder (first second : Frame) : Prop :=
  (∀ trial ∈ pairTrials first second, ∀ trial' ∈ pairTrials first second, ∀ x ∈ trial.offer? 7,
    ∀ y ∈ trial'.offer? 7, x.segment.SamePath y.segment) ∧
  ∃ c ∈ (Dossier.run {} (pairTrials first second)).closures, c.flow = 7 ∧
    c.aggregate.segments = 2 ∧ ∃ head ∈ c.offers.head?, ∃ x ∈ c.offers,
      ¬ head.segment.SameBut head.segment.headers.ownBits x.segment

instance (first second : Frame) : Decidable (GoesUnder first second) :=
  inferInstanceAs (Decidable (_ ∧ _))

/-- The options of a version 4 header are lost, the flow label of a version 6 header
    is, and the reserved bits of a TCP header are. -/
theorem not_shared_loose :
    GoesUnder (optionedFrame 1 [1, 1, 1, 1] [1]) (optionedFrame 2 [1, 1, 1, 0] [2]) ∧
      GoesUnder (labelledFrame 1 1 [1]) (labelledFrame 2 2 [2]) ∧
      GoesUnder (reservedFrame 1 0 [1]) (reservedFrame 2 0x0E [2]) := by
  decide +kernel

end ReceiveOffload
