import OrderFlow.Delivery
import OrderFlow.Proofs.Turn

/-!
# The connection of a delivery

Seen through its acts a connection is unopened, held or released.  `Link.next?` says
which acts are in order and what becomes of the connection: it is opened at most
once, written, flushed and closed only while it is held, and released once at most.
All that a delivery does is in order, and it never ends with the connection held.
-/

namespace OrderFlow

/-- What has become of a connection. -/
inductive Link where
  | unopened
  | held
  | released
  deriving DecidableEq

namespace Link

/-- The connection after an act; `none` if the act is out of order. -/
def next? : Link → Act → Option Link
  | link, .logged _ => some link
  | .unopened, .attempted => some .unopened
  | .unopened, .established => some .held
  | .held, .drew _ => some .held
  | .held, .wrote _ _ => some .held
  | .held, .flushed _ => some .held
  | .held, .closed _ => some .held
  | .held, .released => some .released
  | _, _ => none

/-- The connection after some acts; `none` if one of them is out of order. -/
def after? : Link → List Act → Option Link
  | link, [] => some link
  | link, act :: acts => (link.next? act).bind (after? · acts)

@[simp] theorem after?_nil (link : Link) : link.after? [] = some link := rfl

@[simp] theorem after?_cons (link : Link) (act : Act) (acts : List Act) :
    link.after? (act :: acts) = (link.next? act).bind (after? · acts) := rfl

@[simp] theorem next?_logged (link : Link) (event : Event) :
    link.next? (.logged event) = some link := by
  cases link <;> rfl

attribute [simp] next?

theorem after?_append (link : Link) (xs ys : List Act) :
    link.after? (xs ++ ys) = (link.after? xs).bind (after? · ys) := by
  induction xs generalizing link with
  | nil => rfl
  | cons act rest ih =>
      rw [List.cons_append, after?_cons, after?_cons, Option.bind_assoc]
      congr 1
      funext middle
      exact ih middle

/-- What comes after acts that were in order. -/
theorem after?_append_of_eq {start link : Link} {acts : List Act}
    (h : start.after? acts = some link) (more : List Act) :
    start.after? (acts ++ more) = link.after? more := by
  rw [after?_append, h, Option.bind_some]

/-- Acts in order are in order as far as they go. -/
theorem after?_take_isSome {start : Link} {acts : List Act}
    (h : (start.after? acts).isSome) (count : Nat) :
    (start.after? (acts.take count)).isSome := by
  rw [← List.take_append_drop count acts, after?_append] at h
  cases htake : start.after? (acts.take count) with
  | none => simp [htake] at h
  | some link => rfl

/-- What every act in order adds to adds up over acts in order. -/
theorem count_after? {stock : Link → Nat} {counted : Act}
    (hnext : ∀ {link next act}, Link.next? link act = some next →
      stock link + [act].count counted = stock next)
    {start link : Link} {acts : List Act} (h : start.after? acts = some link) :
    stock start + acts.count counted = stock link := by
  induction acts generalizing start with
  | nil =>
      cases h
      rfl
  | cons act rest ih =>
      obtain ⟨middle, hmiddle, hrest⟩ := Option.bind_eq_some_iff.mp h
      have hfirst := hnext hmiddle
      have hlast := ih hrest
      rw [← List.singleton_append, List.count_append]
      omega

/-- How often a connection has been established. -/
def openings : Link → Nat
  | .unopened => 0
  | .held => 1
  | .released => 1

theorem openings_next? {link next : Link} {act : Act} (h : link.next? act = some next) :
    link.openings + [act].count .established = next.openings := by
  cases link <;> cases act <;> cases h <;> rfl

/-- Acts in order establish a connection as often as they open it. -/
theorem openings_after? {start link : Link} {acts : List Act}
    (h : start.after? acts = some link) :
    start.openings + acts.count .established = link.openings :=
  count_after? openings_next? h

/-- How often a connection has been released. -/
def releases : Link → Nat
  | .unopened => 0
  | .held => 0
  | .released => 1

theorem releases_next? {link next : Link} {act : Act} (h : link.next? act = some next) :
    link.releases + [act].count .released = next.releases := by
  cases link <;> cases act <;> cases h <;> rfl

/-- Acts in order release a connection as often as it becomes released. -/
theorem releases_after? {start link : Link} {acts : List Act}
    (h : start.after? acts = some link) :
    start.releases + acts.count .released = link.releases :=
  count_after? releases_next? h

/-- Nothing is done before a connection is established but to attempt it, and to log. -/
theorem eq_attempted_or_logged {start : Link} {acts : List Act}
    (h : start.after? acts = some .unopened) :
    start = .unopened ∧ ∀ act ∈ acts, act = .attempted ∨ ∃ event, act = .logged event := by
  induction acts generalizing start with
  | nil =>
      cases h
      exact ⟨rfl, nofun⟩
  | cons act rest ih =>
      obtain ⟨middle, hnext, hrest⟩ := Option.bind_eq_some_iff.mp h
      obtain ⟨rfl, hothers⟩ := ih hrest
      rw [List.forall_mem_cons]
      cases start <;> cases act <;> cases hnext <;> exact ⟨rfl, by simp, hothers⟩

/-- No attempt to connect is made once a connection is established. -/
theorem attempted_not_mem {start link : Link} {acts : List Act} (hopened : start ≠ .unopened)
    (h : start.after? acts = some link) : .attempted ∉ acts := by
  induction acts generalizing start with
  | nil => exact List.not_mem_nil
  | cons act rest ih =>
      obtain ⟨middle, hnext, hrest⟩ := Option.bind_eq_some_iff.mp h
      have hmiddle : middle ≠ .unopened ∧ act ≠ .attempted := by
        cases start <;> cases act <;> cases hnext <;> simp_all
      exact List.not_mem_cons_of_ne_of_not_mem hmiddle.2.symm (ih hmiddle.1 hrest)

/-- No order is drawn while the connection is unopened. -/
theorem drawn_eq_nil_of_after? {start : Link} {acts : List Act}
    (h : start.after? acts = some .unopened) : start = .unopened ∧ Act.drawn acts = [] := by
  obtain ⟨hstart, hacts⟩ := eq_attempted_or_logged h
  refine ⟨hstart, List.filterMap_eq_nil_iff.mpr fun act hact => ?_⟩
  obtain rfl | ⟨event, rfl⟩ := hacts act hact <;> rfl

end Link

namespace Act

/-- The connection after a tick's acts. -/
def link? (acts : List Act) : Option Link :=
  Link.unopened.after? acts

/-- The acts are in order and the connection is not held after them. -/
def Settled (acts : List Act) : Prop :=
  link? acts = some .unopened ∨ link? acts = some .released

theorem Settled.logged {acts : List Act} (h : Settled acts) (event : Event) :
    Settled (acts ++ [.logged event]) := by
  rcases h with h | h
  · exact Or.inl (by simp [link?, Link.after?_append_of_eq h])
  · exact Or.inr (by simp [link?, Link.after?_append_of_eq h])

end Act

namespace Batch

theorem after?_openLine (size sent : Nat) (generator : Generator) :
    Link.held.after? (openLine size sent generator).2.1 = some .held := by
  unfold openLine
  split
  · rfl
  · rfl

theorem after?_accept (batch : Batch) (sent : Nat) (rest : List Char) (count : Nat)
    (generator : Generator) :
    Link.held.after? (batch.accept sent rest count generator).acts = some .held := by
  unfold accept
  split
  · rfl
  · split
    · simpa using after?_openLine batch.size (sent + 1) generator
    · rfl

/-- Writing a batch holds the connection all the time. -/
theorem after?_move (batch : Batch) (generator : Generator) :
    Link.held.after? (batch.move generator).acts = some .held := by
  unfold move
  split
  · dsimp only
    split
    · exact after?_accept ..
    · exact after?_accept ..
    · rfl
    · rfl
    · split <;> rfl
  · dsimp only
    split <;> rfl

end Batch

namespace Delivery

/-- What has become of the connection of a delivery under way. -/
def link (delivery : Delivery) : Link :=
  match delivery.stage with
  | .unstarted => .unopened
  | .connecting _ => .unopened
  | .sending _ => .held
  | .closing _ => .held

/-- The acts so far are in order and have brought the connection to where the delivery
stands. -/
def Connected (acts : List Act) (delivery : Delivery) : Prop :=
  Act.link? acts = some delivery.link

/-- What a dropped delivery does leaves its connection released. -/
theorem settled_drop {acts : List Act} {delivery : Delivery} (h : Connected acts delivery) :
    Act.Settled (acts ++ delivery.drop) := by
  rw [Connected, link] at h
  rw [drop]
  cases hstage : delivery.stage with
  | unstarted => exact Or.inl (by simpa [hstage] using h)
  | connecting since => exact Or.inl (by simpa [hstage] using h)
  | sending batch =>
      rw [hstage] at h
      exact Or.inr (by simp [Act.link?, Link.after?_append_of_eq h])
  | closing sent =>
      rw [hstage] at h
      exact Or.inr (by simp [Act.link?, Link.after?_append_of_eq h])

theorem connect_keeps (timer : Timer) (now : Nat) {acts : List Act} {delivery : Delivery}
    {since : Nat} (generator : Generator) (hstage : delivery.stage = .connecting since)
    (h : Connected acts delivery) :
    (connect timer now delivery since generator).Keeps Connected
      (fun acts _ => Act.Settled acts) acts := by
  have hunopened : Act.link? acts = some .unopened := by
    simpa [Connected, link, hstage] using h
  refine connect_keeps_of_attempt (fun _ => h) (fun _ _ => Or.inl hunopened) fun _ => ?_
  have hdrawn := Batch.after?_openLine delivery.plan.batchSize 0 generator
  simpa [Connected, link, Act.link?, Link.after?_append_of_eq hunopened] using hdrawn

theorem close_keeps {acts : List Act} {delivery : Delivery} (sent : Nat)
    (generator : Generator) (h : Act.link? acts = some .held) :
    (close delivery sent generator).Keeps Connected (fun acts _ => Act.Settled acts) acts := by
  apply Or.inr
  unfold close
  dsimp only
  rw [Act.link?, Link.after?_append_of_eq h]
  split
  · rfl
  · split <;> rfl

/-- Every move of a delivery is in order, and one that ends it leaves no connection held. -/
theorem move_keeps (timer : Timer) (now : Nat) (acts : List Act) (delivery : Delivery)
    (generator : Generator) (h : Connected acts delivery) :
    (move timer now delivery generator).Keeps Connected
      (fun acts _ => Act.Settled acts) acts := by
  have hlink : ∀ {stage}, delivery.stage = stage →
      Act.link? acts = some (link { delivery with stage }) := by
    rintro stage rfl
    exact h
  refine move_keeps_of_stages (fun hstage => ?_)
    (fun since hstage => connect_keeps timer now generator hstage h)
    (fun batch hstage => ?_) fun sent hstage => close_keeps sent generator (hlink hstage)
  · rw [Connected, Act.link?, Link.after?_append_of_eq (hlink hstage)]
    rfl
  · have hmoved : Act.link? (acts ++ (batch.move generator).acts) = some .held := by
      rw [Act.link?, Link.after?_append_of_eq (hlink hstage)]
      exact Batch.after?_move batch generator
    unfold Turn.Keeps
    split
    · exact hmoved
    · exact hmoved
    · rename_i result hprogress
      rcases result with failure | sent
      · apply Or.inr
        rw [Act.link?, Link.after?_append_of_eq hmoved]
        rfl
      · exact hmoved

theorem poll_keeps_connection (timer : Timer) (now : Nat) (acts : List Act)
    (delivery : Delivery) (generator : Generator) (h : Connected acts delivery) :
    (poll timer now delivery generator).Keeps Connected
      (fun acts _ => Act.Settled acts) acts :=
  Turn.poll_keeps (move_keeps timer now) _ acts delivery generator h

end Delivery

end OrderFlow
