import OrderFlow.Delivery

/-!
# Attempts to connect

What an attempt to connect has come to depends on when it is looked at: an answer that is there
is taken however late it came, and only without one is the attempt given up at its deadline.
So an answer that never comes after the deadline decides the attempt alone.  Any other attempt
comes out one way if it is looked at in time and may come out another way if it is not.
-/

namespace OrderFlow.Delivery

variable {timer : Timer} {plan : Plan} {peer : Peer} {now since delay : Nat}
  {limit : Duration} {result : Except Failure Unit}

/-! ## What there is to see at an instant -/

/-- The other side has not answered by now an attempt to connect that started at `since`. -/
def Unanswered (peer : Peer) (since now : Nat) : Prop :=
  ∀ delay result, peer.connecting.answer? = some (delay, result) → now < since + delay

theorem answered?_eq_some_iff :
    answered? now since peer = some result ↔
      ∃ delay, peer.connecting.answer? = some (delay, result) ∧ since + delay ≤ now := by
  unfold answered?
  split
  · rename_i hanswer
    simp [hanswer]
  · rename_i delay answer hanswer
    rw [hanswer]
    constructor
    · intro h
      split at h
      · rename_i hdue
        exact ⟨delay, by rw [Option.some.inj h], hdue⟩
      · cases h
    · rintro ⟨delay', heq, hdue⟩
      cases heq
      rw [if_pos hdue]

theorem answered?_eq_none_iff : answered? now since peer = none ↔ Unanswered peer since now := by
  rw [Option.eq_none_iff_forall_ne_some]
  simp only [ne_eq, answered?_eq_some_iff, not_exists, not_and, Nat.not_le]
  exact ⟨fun h delay result hanswer => h result delay hanswer,
    fun h result delay hanswer => h delay result hanswer⟩

theorem expired?_eq_some_iff {cause : Failure} :
    expired? timer now since plan = some cause ↔
      ∃ limit, plan.connectTimeout = some limit ∧ timer.due (since + limit.nanos) ≤ now ∧
        cause = .connectTimeout plan.target limit := by
  unfold expired?
  split
  · rename_i hlimit
    simp [hlimit]
  · rename_i limit hlimit
    by_cases hdue : timer.due (since + limit.nanos) ≤ now
    · simp [hlimit, hdue, eq_comm]
    · simp [hlimit, hdue]

/-- An answer that is there is taken, whatever the bound on connecting. -/
theorem attempt?_of_answered (hanswer : peer.connecting.answer? = some (delay, result))
    (hdue : since + delay ≤ now) : attempt? timer now since plan peer = some result := by
  rw [attempt?, answered?_eq_some_iff.mpr ⟨delay, hanswer, hdue⟩]

theorem attempt?_of_unanswered (h : Unanswered peer since now) :
    attempt? timer now since plan peer = (expired? timer now since plan).map .error := by
  rw [attempt?, answered?_eq_none_iff.mpr h]

/-- Without an answer an attempt is given up at its deadline. -/
theorem attempt?_of_expired (h : Unanswered peer since now)
    (hlimit : plan.connectTimeout = some limit)
    (hdue : timer.due (since + limit.nanos) ≤ now) :
    attempt? timer now since plan peer =
      some (.error (.connectTimeout plan.target limit)) := by
  rw [attempt?_of_unanswered h, expired?_eq_some_iff.mpr ⟨limit, hlimit, hdue, rfl⟩]
  rfl

theorem attempt?_of_limit_ahead (h : Unanswered peer since now)
    (hlimit : plan.connectTimeout = some limit)
    (hahead : now < timer.due (since + limit.nanos)) :
    attempt? timer now since plan peer = none := by
  rw [attempt?_of_unanswered h, expired?, hlimit]
  dsimp only
  rw [if_neg (Nat.not_le_of_lt hahead)]
  rfl

/-! ## One poll while connecting -/

/-- The first poll starts an attempt to connect and looks at it at once. -/
theorem poll_start (timer : Timer) (now : Nat) (plan : Plan) (peer : Peer)
    (generator : Generator) :
    poll timer now (start plan peer) generator =
      (poll timer now ⟨plan, peer, .connecting now⟩ generator).after [.attempted] := rfl

/-- An attempt that has come to nothing yet is waited for. -/
theorem poll_of_attempt_pending (h : attempt? timer now since plan peer = none)
    (generator : Generator) :
    poll timer now ⟨plan, peer, .connecting since⟩ generator =
      ⟨generator, [], .waiting ⟨plan, peer, .connecting since⟩⟩ := by
  have hmove : move timer now ⟨plan, peer, .connecting since⟩ generator =
      ⟨generator, [], .waiting ⟨plan, peer, .connecting since⟩⟩ := by
    simp only [move, connect, h]
  rw [poll, load, Turn.poll, hmove]

/-- An attempt that failed ends the delivery. -/
theorem poll_of_attempt_failed {cause : Failure}
    (h : attempt? timer now since plan peer = some (.error cause)) (generator : Generator) :
    poll timer now ⟨plan, peer, .connecting since⟩ generator =
      ⟨generator, [], .ended (.error ⟨0, cause⟩)⟩ := by
  have hmove : move timer now ⟨plan, peer, .connecting since⟩ generator =
      ⟨generator, [], .ended (.error ⟨0, cause⟩)⟩ := by
    simp only [move, connect, h]
  rw [poll, load, Turn.poll, hmove]

/-! ## How an attempt can come out -/

/-- How an attempt to connect can come out, whenever it starts and is looked at: as it is
answered, or given up if there is a start after which the answer comes later than the
deadline. -/
inductive CanSettle (timer : Timer) (plan : Plan) (peer : Peer) : Except Failure Unit → Prop
  | answered {delay : Nat} {result : Except Failure Unit}
      (answer : peer.connecting.answer? = some (delay, result)) :
      CanSettle timer plan peer result
  | expired {limit : Duration} {since : Nat} (limited : plan.connectTimeout = some limit)
      (late : Unanswered peer since (timer.due (since + limit.nanos))) :
      CanSettle timer plan peer (.error (.connectTimeout plan.target limit))

theorem canSettle_of_attempt (h : attempt? timer now since plan peer = some result) :
    CanSettle timer plan peer result := by
  cases hanswered : answered? now since peer with
  | some answer =>
      obtain ⟨delay, hanswer, hdue⟩ := answered?_eq_some_iff.mp hanswered
      rw [attempt?_of_answered hanswer hdue] at h
      cases h
      exact .answered hanswer
  | none =>
      have hunanswered := answered?_eq_none_iff.mp hanswered
      rw [attempt?_of_unanswered hunanswered] at h
      obtain ⟨cause, hexpired, rfl⟩ := Option.map_eq_some_iff.mp h
      obtain ⟨limit, hlimit, hdue, rfl⟩ := expired?_eq_some_iff.mp hexpired
      exact .expired hlimit fun delay answer hanswer =>
        Nat.lt_of_le_of_lt hdue (hunanswered delay answer hanswer)

/-- A connection comes about only with a peer that accepts. -/
theorem CanSettle.accepts (h : CanSettle timer plan peer (.ok ())) :
    ∃ delay, peer.connecting = .accepts delay := by
  obtain ⟨delay, hanswer⟩ : ∃ delay, peer.connecting.answer? = some (delay, .ok ()) := by
    cases h with
    | answered answer => exact ⟨_, answer⟩
  unfold Connecting.answer? at hanswer
  split at hanswer
  · rename_i delay' haccepts
    exact ⟨delay', haccepts⟩
  · cases hanswer
  · cases hanswer

/-- A peer that accepts fails to be connected only by answering after the limit. -/
theorem CanSettle.late_of_accepts {cause : Failure}
    (h : CanSettle timer plan peer (.error cause)) (haccepts : peer.connecting = .accepts delay) :
    ∃ limit, plan.connectTimeout = some limit ∧ limit.nanos < delay := by
  cases h with
  | answered answer =>
      rw [haccepts] at answer
      cases answer
  | @expired limit since limited late =>
      refine ⟨limit, limited, ?_⟩
      have hlate := late delay (.ok ()) (by rw [haccepts]; rfl)
      have hdue := timer.le_due (since + limit.nanos)
      omega

/-! ## Attempts that are looked at in time -/

theorem mem_turningPoints {instant : Nat} :
    instant ∈ turningPoints timer plan peer since ↔
      (∃ delay result, peer.connecting.answer? = some (delay, result) ∧
        instant = since + delay) ∨
      ∃ limit, plan.connectTimeout = some limit ∧
        instant = timer.due (since + limit.nanos) := by
  simp only [turningPoints, List.mem_append, Option.mem_toList, Option.map_eq_some_iff,
    Prod.exists]
  grind

/-- An attempt has come to something just from the first turning point on. -/
theorem attempt?_isSome_iff :
    (attempt? timer now since plan peer).isSome ↔
      ∃ instant, settlesAt? timer plan peer since = some instant ∧ instant ≤ now := by
  have hturned : (attempt? timer now since plan peer).isSome ↔
      ∃ instant ∈ turningPoints timer plan peer since, instant ≤ now := by
    simp only [mem_turningPoints]
    constructor
    · intro hsome
      cases hanswered : answered? now since peer with
      | some result =>
          obtain ⟨delay, hanswer, hdue⟩ := answered?_eq_some_iff.mp hanswered
          exact ⟨since + delay, Or.inl ⟨delay, result, hanswer, rfl⟩, hdue⟩
      | none =>
          rw [attempt?_of_unanswered (answered?_eq_none_iff.mp hanswered), Option.isSome_map]
            at hsome
          obtain ⟨cause, hexpired⟩ := Option.isSome_iff_exists.mp hsome
          obtain ⟨limit, hlimit, hdue, -⟩ := expired?_eq_some_iff.mp hexpired
          exact ⟨_, Or.inr ⟨limit, hlimit, rfl⟩, hdue⟩
    · rintro ⟨instant, ⟨delay, result, hanswer, rfl⟩ | ⟨limit, hlimit, rfl⟩, hdue⟩
      · rw [attempt?_of_answered hanswer hdue]
        rfl
      · cases hanswered : answered? now since peer with
        | some result =>
            rw [attempt?, hanswered]
            rfl
        | none =>
            rw [attempt?_of_expired (answered?_eq_none_iff.mp hanswered) hlimit hdue]
            rfl
  rw [hturned]
  constructor
  · rintro ⟨instant, hmem, hdue⟩
    obtain ⟨first, hfirst⟩ := Option.isSome_iff_exists.mp
      (List.isSome_min?_of_mem hmem)
    have hle := (List.min?_eq_some_iff.mp hfirst).2 instant hmem
    exact ⟨first, hfirst, Nat.le_trans hle hdue⟩
  · rintro ⟨first, hfirst, hdue⟩
    exact ⟨first, (List.min?_eq_some_iff.mp hfirst).1, hdue⟩

theorem since_le_settlesAt {instant : Nat}
    (h : settlesAt? timer plan peer since = some instant) : since ≤ instant := by
  have hmem := (List.min?_eq_some_iff.mp h).1
  rcases mem_turningPoints.mp hmem with ⟨delay, _, _, rfl⟩ | ⟨limit, _, rfl⟩
  · exact Nat.le_add_right since delay
  · exact Nat.le_trans (Nat.le_add_right since _) (timer.le_due _)

/-- An attempt hangs just if it is neither answered nor bounded. -/
theorem settlesAt?_eq_none_iff :
    settlesAt? timer plan peer since = none ↔
      peer.connecting.answer? = none ∧ plan.connectTimeout = none := by
  simp [settlesAt?, turningPoints]

/-- When an attempt to connect that starts at `since` comes to something if it is looked at in
time, and to what; `none` if it hangs. -/
def settlement? (timer : Timer) (plan : Plan) (peer : Peer) (since : Nat) :
    Option (Nat × Except Failure Unit) :=
  (settlesAt? timer plan peer since).bind fun instant =>
    (attempt? timer instant since plan peer).map fun result => (instant, result)

theorem settlement?_eq_some_iff {instant : Nat} :
    settlement? timer plan peer since = some (instant, result) ↔
      settlesAt? timer plan peer since = some instant ∧
        attempt? timer instant since plan peer = some result := by
  unfold settlement?
  rw [Option.bind_eq_some_iff]
  constructor
  · rintro ⟨instant', hsettles, hattempt⟩
    obtain ⟨result', hresult, heq⟩ := Option.map_eq_some_iff.mp hattempt
    cases heq
    exact ⟨hsettles, hresult⟩
  · rintro ⟨hsettles, hattempt⟩
    exact ⟨instant, hsettles, by rw [hattempt]; rfl⟩

theorem settlement?_eq_none_iff :
    settlement? timer plan peer since = none ↔ settlesAt? timer plan peer since = none := by
  unfold settlement?
  constructor
  · intro h
    cases hsettles : settlesAt? timer plan peer since with
    | none => rfl
    | some instant =>
        have hsome := attempt?_isSome_iff.mpr ⟨instant, hsettles, Nat.le_refl instant⟩
        obtain ⟨result, hresult⟩ := Option.isSome_iff_exists.mp hsome
        rw [hsettles, Option.bind_some, hresult] at h
        cases h
  · intro h
    rw [h]
    rfl

/-- What an attempt has come to as it starts, it has come to at once. -/
theorem settlement?_of_attempt_at_start
    (h : attempt? timer since since plan peer = some result) :
    settlement? timer plan peer since = some (since, result) := by
  obtain ⟨instant, hsettles, hle⟩ :=
    attempt?_isSome_iff.mp (Option.isSome_of_eq_some h)
  obtain rfl := Nat.le_antisymm hle (since_le_settlesAt hsettles)
  exact settlement?_eq_some_iff.mpr ⟨hsettles, h⟩

/-- An answer that does not come after the deadline settles the attempt. -/
theorem settlement?_of_answer (hanswer : peer.connecting.answer? = some (delay, result))
    (hintime : ∀ limit, plan.connectTimeout = some limit →
      since + delay ≤ timer.due (since + limit.nanos)) :
    settlement? timer plan peer since = some (since + delay, result) := by
  refine settlement?_eq_some_iff.mpr ⟨List.min?_eq_some_iff.mpr ⟨?_, ?_⟩,
    attempt?_of_answered hanswer (Nat.le_refl _)⟩
  · exact mem_turningPoints.mpr (Or.inl ⟨delay, result, hanswer, rfl⟩)
  · intro instant hmem
    rcases mem_turningPoints.mp hmem with ⟨delay', _, hother, rfl⟩ | ⟨limit, hlimit, rfl⟩
    · rw [hanswer] at hother
      cases hother
      exact Nat.le_refl _
    · exact hintime limit hlimit

/-- An attempt that is not answered by its deadline is given up then. -/
theorem settlement?_of_expired (hlimit : plan.connectTimeout = some limit)
    (hlate : Unanswered peer since (timer.due (since + limit.nanos))) :
    settlement? timer plan peer since =
      some (timer.due (since + limit.nanos), .error (.connectTimeout plan.target limit)) := by
  refine settlement?_eq_some_iff.mpr ⟨List.min?_eq_some_iff.mpr ⟨?_, ?_⟩,
    attempt?_of_expired hlate hlimit (Nat.le_refl _)⟩
  · exact mem_turningPoints.mpr (Or.inr ⟨limit, hlimit, rfl⟩)
  · intro instant hmem
    rcases mem_turningPoints.mp hmem with ⟨delay, result, hanswer, rfl⟩ | ⟨other, hother, rfl⟩
    · exact Nat.le_of_lt (hlate delay result hanswer)
    · rw [hlimit] at hother
      cases hother
      exact Nat.le_refl _

end OrderFlow.Delivery
