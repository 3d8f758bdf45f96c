import ReceiveOffload.Proofs.Choices
import ReceiveOffload.Proofs.SegmentSums
import ReceiveOffload.Proofs.TwinRuns

/-!
# Two Ways to a Checksum

A caller can have the checksum of an aggregate completed or leave it to a consumer. It
is meant to be a choice of who does the work and not of what comes out.

To say what comes out takes two runs. One is the run as it was, and in the other every
segment comes with the wish for a complete checksum, and nothing else is different.
The two hand out the same aggregates in the same order, made of the same segments,
and what a consumer makes of the one is what is handed out in the other, octet by
octet.

The runs are twins, and so are their dossiers. That the dossiers have the same
segments is seen from the outside only, since it can be told from the pending
aggregates which segments they are made of, and from the aggregates which went into
them.

## Main definitions

* `Trial.completing`: The trial with the wish for a complete checksum.
* `Dossier.Twins`: The same aggregates were made of the same segments.
* `Closure.AsAsked`: An aggregate has the checksum that its first offer asked for.

## Theorems

* `Dossier.Twins.endure`, `Dossier.run_twins`: Runs of the same trials but for the
  choices.
* `Closure.Twins.completed`: A consumer makes of an aggregate what its twin is.
* `checksums_agree`: The checksum of an aggregate in every run.
-/

namespace ReceiveOffload

/-- The trial with the wish for a complete checksum, if it offers a segment. -/
def Trial.completing : Trial → Trial
  | .step (.offer flow frame policy extras) =>
    .step (.offer flow frame policy { extras with fullChecksum := true })
  | trial => trial

theorem Trial.bare_completing (trial : Trial) : trial.completing.bare = trial.bare := by
  rcases trial with step | outages | timers
  · cases step <;> rfl
  · rfl
  · rfl

/-- Whatever is offered then comes with the wish. -/
theorem Trial.fullChecksum_completing (trial : Trial) (flow : UInt64) (x : Offer)
    (h : trial.completing.offer? flow = some x) : x.extras.fullChecksum = true := by
  rcases trial with step | outages | timers
  · cases step with
    | offer flow' frame policy extras =>
        rw [completing, offer?] at h
        split at h
        · rcases Option.map_eq_some_iff.mp h with ⟨segment, _, rfl⟩
          rfl
        · cases h
    | flush | advance | deliver | refuse => cases h
  · cases h
  · cases h

/-- The choices have nothing to do with which segment arrives. -/
theorem Trial.arrival?_congr {trial trial' : Trial} (h : trial'.bare = trial.bare)
    (flow : UInt64) : trial'.arrival? flow = trial.arrival? flow := by
  rcases Trial.cases_of_bare h with rfl | ⟨_, _, _, _, _, _, rfl, rfl, _⟩
  · rfl
  · rfl

theorem membersAfter_congr {before after before' after' : Option Pending}
    (hbefore : before'.map Pending.bare = before.map Pending.bare)
    (hafter : after'.map Pending.bare = after.map Pending.bare) (arrival : Option Segment)
    (members : List Segment) :
    membersAfter before' after' arrival members = membersAfter before after arrival members := by
  -- Which segments there are is told by the frames, and these are not books.
  have hframe : before'.map Pending.frame = before.map Pending.frame := by
    have hboth := congrArg (Option.map Pending.frame) hbefore
    rw [Option.map_map, Option.map_map] at hboth
    exact hboth
  rcases after with _ | p <;> rcases after' with _ | q
  · rfl
  · cases hafter
  · cases hafter
  · have hbare : q.bare = p.bare := Option.some.inj hafter
    have hsame : q.frame = p.frame := show q.bare.frame = p.bare.frame by rw [hbare]
    rcases arrival with _ | segment
    · rfl
    · simp only [membersAfter, hframe, hsame]

/-- Twins were handed the same aggregates for the same flows. -/
theorem World.Twins.aggregates {w v : World} (h : w.Twins v) :
    List.Forall₂ (fun a b => b.1 = a.1 ∧ a.2.Twins b.2) w.aggregates v.aggregates := by
  have hnamed : ∀ {flow : UInt64} {a b : Option Aggregate}, Option.Rel Aggregate.Twins a b →
      List.Forall₂ (fun a b => b.1 = a.1 ∧ a.2.Twins b.2)
        (a.map fun a => (flow, a)).toList (b.map fun b => (flow, b)).toList := by
    intro flow a b hab
    cases hab with
    | none => exact .nil
    | some hab => exact .cons ⟨rfl, hab⟩ .nil
  have hevent : ∀ {a b : Event}, a.Twins b →
      List.Forall₂ (fun a b => b.1 = a.1 ∧ a.2.Twins b.2) a.aggregate?.toList
        b.aggregate?.toList := by
    intro a b hab
    cases hab with
    | offered flow frame h => exact hnamed h.aggregate
    | flushed flow h => exact hnamed h.aggregate
    | ranOut expiries => exact .nil
    | delivered expiry h => exact hnamed h
  have hcons : ∀ (event : Event) events, (event :: events).filterMap Event.aggregate?
      = event.aggregate?.toList ++ events.filterMap Event.aggregate? := by
    intro event events
    rw [List.filterMap_cons]
    rcases event.aggregate? with _ | e <;> rfl
  have hhistory := h.history
  unfold World.aggregates
  generalize w.history = seen, v.history = seen' at hhistory ⊢
  induction hhistory with
  | nil => exact .nil
  | cons hab _ ih =>
      rw [hcons, hcons]
      exact List.rel_append (hevent hab) ih

/-- An aggregate counts as many segments as its twin, and there were as many offers. -/
theorem offersWithin_congr {a b : Aggregate} (h : a.Twins b) {arrival arrival' : Option Offer}
    {offers offers' : List Offer}
    (harrival : arrival'.map Offer.segment = arrival.map Offer.segment)
    (hoffers : offers'.map Offer.segment = offers.map Offer.segment) :
    (offersWithin b arrival' offers').map Offer.segment
      = (offersWithin a arrival offers).map Offer.segment := by
  have hsegments : b.segments = a.segments := by rw [h.same]
  have hlength : offers'.length = offers.length := by
    rw [← List.length_map Offer.segment, hoffers, List.length_map]
  have hlist : ∀ x : Option Offer, x.toList.map Offer.segment = (x.map Offer.segment).toList := by
    intro x
    cases x <;> rfl
  simp only [offersWithin, hsegments, hlength]
  split
  · exact hoffers
  · rw [List.map_append, List.map_append, hoffers, hlist, hlist, harrival]

/-- How many frames a world has stored is told by the identifiers. -/
theorem World.stores_endure (w : World) (trial : Trial) :
    (w.endure trial).stores
      = w.stores + ((w.endure trial).nextFrame - w.nextFrame).toNat := by
  rcases w.endure_eq_next trial with hsame | ⟨engine, events, hnext⟩
  · rw [hsame, UInt64.sub_self]
    rfl
  · rw [hnext]
    rfl

/-- The entries are for twins that were made of the same segments. -/
structure Closure.Twins (c e : Closure) : Prop where
  flow : e.flow = c.flow
  aggregate : c.aggregate.Twins e.aggregate
  segments : e.offers.map Offer.segment = c.offers.map Offer.segment

namespace Dossier

/-- The worlds are twins, and what is pending and what was handed out was made of the
    same segments. -/
structure Twins (d e : Dossier) : Prop where
  world : d.world.Twins e.world
  stores : e.world.stores = d.world.stores
  segments : ∀ flow, (e.offers flow).map Offer.segment = (d.offers flow).map Offer.segment
  closures : List.Forall₂ Closure.Twins d.closures e.closures

theorem Twins.endure {d e : Dossier} (h : d.Twins e) {trial trial' : Trial}
    (htrial : trial'.bare = trial.bare) : (d.endure trial).Twins (e.endure trial') := by
  have hworld := h.world.endure htrial
  have hnext : ∀ {w v : World}, w.Twins v → v.nextFrame = w.nextFrame := fun h =>
    congrArg (fun depot => depot.storage.next.number) h.engine.services.frames
  have harrival : ∀ flow, (trial'.offer? flow).map Offer.segment
      = (trial.offer? flow).map Offer.segment := by
    intro flow
    rw [Trial.map_offer?, Trial.map_offer?, Trial.arrival?_congr htrial]
  constructor
  case world => exact hworld
  case stores =>
    show (e.world.endure trial').stores = (d.world.endure trial).stores
    rw [World.stores_endure, World.stores_endure, h.stores, hnext hworld, hnext h.world]
  case segments =>
    intro flow
    simp only [Dossier.endure, offersAfter_map, harrival, h.segments]
    exact membersAfter_congr (h.world.engine.pending flow) (hworld.engine.pending flow) _ _
  case closures =>
    refine List.rel_append h.closures ?_
    have hlength := h.world.aggregates.length_eq
    rw [List.forall₂_map_left_iff, List.forall₂_map_right_iff, ← hlength]
    refine (List.forall₂_drop _ hworld.aggregates).imp fun a b hab => ?_
    exact ⟨hab.1, hab.2,
      offersWithin_congr hab.2 (hab.1 ▸ harrival a.1) (hab.1 ▸ h.segments a.1)⟩

/-- Runs of the same trials but for the choices hand out twins that were made of the
    same segments. -/
theorem run_twins (setup : Setup) (trials trials' : List Trial)
    (hsame : trials'.map Trial.bare = trials.map Trial.bare) :
    (run setup trials).Twins (run setup trials') := by
  -- Trials are taken from the front, so the statement has to allow any twins.
  suffices h : ∀ d e : Dossier, d.Twins e →
      (trials.foldl Dossier.endure d).Twins (trials'.foldl Dossier.endure e) from
    h _ _ ⟨⟨⟨fun _ => rfl, .refl _⟩, .nil⟩, rfl, fun _ => rfl, .nil⟩
  induction trials generalizing trials' with
  | nil =>
      rw [List.map_nil, List.map_eq_nil_iff] at hsame
      subst hsame
      exact fun _ _ h => h
  | cons trial trials ih =>
      rcases List.map_eq_cons_iff.mp hsame with ⟨trial', rest, rfl, htrial, hrest⟩
      exact fun d e h => ih rest hrest (d.endure trial) (e.endure trial') (h.endure htrial)

end Dossier

/-- An aggregate of several segments leaves with the checksum that its first offer asked
    for, and a consumer is told which one that is. -/
structure Closure.AsAsked (c : Closure) (x : Offer) (h : Headers) : Prop where
  first : c.offers.head? = some x
  decodes : Headers.decode c.aggregate.frame = .ok h
  announced : h.Announced c.aggregate x.extras.fullChecksum
  complete : x.extras.fullChecksum = true → h.Verifies c.aggregate.frame.octets
  prepared : x.extras.fullChecksum = false → h.Prepared c.aggregate.frame.octets

/-- What was sealed as the first offer asked has the checksum that it asked for. -/
theorem Closure.asAsked {c : Closure} {x : Offer}
    (closing : Closing c.aggregate (c.offers.map Offer.segment))
    (hseveral : 2 ≤ c.aggregate.segments) (hfirst : x ∈ c.offers.head?)
    (hsealed : c.aggregate.SealedWith x.extras) :
    ∃ first rest h, c.offers.map Offer.segment = first :: rest ∧
      StandsFor c.aggregate.frame first rest h ∧ c.aggregate.transport = h.transport ∧
      h.Measures c.aggregate.frame x.extras.fullChecksum ∧ c.AsAsked x h := by
  have hcomplete : c.aggregate.checksumComplete = x.extras.fullChecksum := by
    rw [hsealed, decide_eq_false (by omega), Bool.false_or]
  rcases closing.announced hseveral with ⟨first, rest, h, hmembers, hstands, hannounced, htransport⟩
  rcases closing.measures hseveral with ⟨h', hdecode, hmeasures⟩
  have hreads := Headers.readsFrom_of_decode _ _ hstands.decodes
  rw [hstands.decodes, Except.ok.injEq] at hdecode
  subst hdecode
  rw [hcomplete] at hannounced hmeasures
  refine ⟨first, rest, h, hmembers, hstands, htransport, hmeasures, hfirst, hstands.decodes,
    hannounced, fun hfull => ?_, fun hfull => ?_⟩
  · rw [hfull] at hmeasures
    exact hmeasures.verifies hreads
  · rw [hfull] at hmeasures
    exact hmeasures.prepared hreads

/-- A consumer makes of an aggregate what its twin with a complete checksum is. -/
theorem Closure.Twins.completed {c e : Closure} {x y : Offer} (twins : c.Twins e)
    (closing : Closing c.aggregate (c.offers.map Offer.segment))
    (closing' : Closing e.aggregate (e.offers.map Offer.segment))
    (hseveral : 2 ≤ c.aggregate.segments) (hfirst : x ∈ c.offers.head?)
    (hsealed : c.aggregate.SealedWith x.extras) (hfirst' : y ∈ e.offers.head?)
    (hsealed' : e.aggregate.SealedWith y.extras) (hfull : y.extras.fullChecksum = true) :
    c.aggregate.completed? = some e.aggregate.frame := by
  have hsegments : e.aggregate.segments = c.aggregate.segments := by rw [twins.aggregate.same]
  rcases Closure.asAsked closing hseveral hfirst hsealed with
    ⟨first, rest, h, hmembers, hstands, htransport, hmeasures, asked⟩
  rcases Closure.asAsked closing' (hsegments ▸ hseveral) hfirst' hsealed' with
    ⟨first', rest', h', hmembers', hstands', _, hmeasures', _⟩
  -- Both have the layout of the one first segment.
  rw [twins.segments, hmembers, List.cons.injEq] at hmembers'
  rcases hmembers' with ⟨rfl, rfl⟩
  rw [hfull] at hmeasures'
  refine twins.aggregate.completed (Headers.readsFrom_of_decode _ _ hstands.decodes)
    asked.announced htransport hmeasures hmeasures' ⟨?_, ?_, ?_⟩
  · rw [hstands'.layout.1, hstands.layout.1]
  · rw [hstands'.layout.2.1, hstands.layout.2.1]
  · rw [hstands'.layout.2.2.1, hstands.layout.2.2.1]

/-- Lists that are related have related entries at one place. -/
theorem exists_of_forall₂ {α β : Type} {R : α → β → Prop} {l : List α} {m : List β}
    (h : List.Forall₂ R l m) (i : Nat) (a : α) (ha : l[i]? = some a) :
    ∃ b, m[i]? = some b ∧ R a b := by
  rcases List.getElem?_eq_some_iff.mp ha with ⟨hi, rfl⟩
  have hi' : i < m.length := h.length_eq ▸ hi
  exact ⟨m[i], List.getElem?_eq_getElem hi', h.get hi hi'⟩

/-- In every run, an aggregate of several segments leaves with the checksum that was
    asked for when its first segment came, and a consumer who follows the virtio header
    makes of it what goes out in the run in which everybody asks for a complete one. -/
theorem checksums_agree (setup : Setup) (trials : List Trial) (i : Nat) (flow : UInt64)
    (aggregate : Aggregate) (hstores : (Dossier.run setup trials).world.stores < 2 ^ 64)
    (hout : (Dossier.run setup trials).world.aggregates[i]? = some (flow, aggregate))
    (hseveral : 2 ≤ aggregate.segments) :
    ∃ c x h, (Dossier.run setup trials).closures[i]? = some c ∧ c.flow = flow ∧
      c.aggregate = aggregate ∧ c.AsAsked x h ∧
      ∃ e, (Dossier.run setup (trials.map Trial.completing)).closures[i]? = some e ∧
        c.Twins e ∧ e.aggregate.checksumComplete = true ∧
        aggregate.completed? = some e.aggregate.frame := by
  have hsame : (trials.map Trial.completing).map Trial.bare = trials.map Trial.bare := by
    rw [List.map_map]
    exact List.map_congr_left fun trial _ => trial.bare_completing
  have twins := Dossier.run_twins setup trials _ hsame
  have hstores' := twins.stores ▸ hstores
  rw [← Dossier.aggregates_run, List.getElem?_map, Option.map_eq_some_iff] at hout
  rcases hout with ⟨c, hc, hentry⟩
  rw [Prod.mk.injEq] at hentry
  rcases hentry with ⟨rfl, rfl⟩
  rcases exists_of_forall₂ twins.closures i c hc with ⟨e, he, htwins⟩
  have hmem := List.mem_of_getElem? hc
  have hmem' := List.mem_of_getElem? he
  have hclosing := ((Dossier.closures_run setup trials hstores).2 c hmem).1
  rcases (Dossier.closures_run setup _ hstores').2 e hmem' with ⟨hclosing', hoffered⟩
  rcases Dossier.sealedWith_run setup trials hstores c hmem with ⟨x, hx, hsealed⟩
  rcases Dossier.sealedWith_run setup _ hstores' e hmem' with ⟨y, hy, hsealed'⟩
  have hfull : y.extras.fullChecksum = true := by
    rcases hoffered y (List.mem_of_mem_head? hy) with ⟨trial', htrial', hoffer⟩
    rcases List.mem_map.mp htrial' with ⟨trial, _, rfl⟩
    exact trial.fullChecksum_completing e.flow y hoffer
  rcases Closure.asAsked hclosing hseveral hx hsealed with ⟨_, _, h, _, _, _, _, asked⟩
  refine ⟨c, x, h, hc, rfl, rfl, asked, e, he, htwins, ?_,
    htwins.completed hclosing hclosing' hseveral hx hsealed hy hsealed' hfull⟩
  rw [hsealed', hfull, Bool.or_true]

/-- Two segments whose checksum is left to a consumer. -/
theorem checksums_agree_pair :
    (Dossier.run {} (pairFlushed.map .step)).world.stores < 2 ^ 64 ∧
      (Dossier.run {} (pairFlushed.map .step)).world.aggregates[0]? = some (7, pairAggregate) ∧
      2 ≤ pairAggregate.segments ∧
      ∃ c x h, (Dossier.run {} (pairFlushed.map .step)).closures[0]? = some c ∧ c.flow = 7 ∧
        c.aggregate = pairAggregate ∧ c.AsAsked x h ∧
        ∃ e, (Dossier.run {} ((pairFlushed.map .step).map Trial.completing)).closures[0]?
            = some e ∧
          c.Twins e ∧ e.aggregate.checksumComplete = true ∧
          pairAggregate.completed? = some e.aggregate.frame := by
  have hstores : (Dossier.run {} (pairFlushed.map .step)).world.stores < 2 ^ 64 := by
    decide +kernel
  have hout : (Dossier.run {} (pairFlushed.map .step)).world.aggregates[0]?
      = some (7, pairAggregate) := by decide +kernel
  exact ⟨hstores, hout, by decide,
    checksums_agree {} (pairFlushed.map .step) 0 7 pairAggregate hstores hout (by decide)⟩

/-- The checksum that is left to it, and the one that a consumer writes over it. -/
example : pairAggregate.frame.octets.word16? 36 = some 0x1422 ∧
    (pairAggregate.completed?.bind fun frame => frame.octets.word16? 36) = some 0x400D := by
  decide +kernel

end ReceiveOffload
