import Trainer51.Subscribers

/-!
# What listeners hear

Listeners come and go in any order, and a number may be unsubscribed more than once or before it is
given out.  What a listener hears is told by the history after its subscription alone: all that is
published there until its number is unsubscribed for the first time.

    numbers are given out in ascending order, so no number comes back   (issued_lt_of_mem)
    who was subscribed before hears his share of what follows           (heard_delivered)
    so does who subscribes on the way                                   (heard_of_mem_subscriptions)
    the listeners are the subscriptions that nothing has ended since    (ids_after)
-/

namespace Trainer51

/-- What can be done to a group of subscribers. -/
inductive SubscriberOperation (α : Type) where
  | subscribe
  | unsubscribe (id : Nat)
  | publish (message : α)
  deriving DecidableEq, Repr

namespace SubscriberOperation

variable {α : Type}

/-- Whether a number is unsubscribed. -/
def ends (id : Nat) : SubscriberOperation α → Bool
  | unsubscribe other => other == id
  | _ => false

def message? : SubscriberOperation α → Option α
  | publish message => some message
  | _ => none

end SubscriberOperation

namespace Subscribers

variable {α : Type}

/-! ## Histories -/

def perform (s : Subscribers) : SubscriberOperation α → Subscribers
  | .subscribe => s.subscribe.1
  | .unsubscribe id => (s.unsubscribe id).1
  | .publish _ => s

/-- The subscribers that a history leaves. -/
def after (s : Subscribers) (history : List (SubscriberOperation α)) : Subscribers :=
  history.foldl perform s

/-- What one operation delivers, to whom. -/
def told (s : Subscribers) : SubscriberOperation α → List (Nat × α)
  | .publish message => s.publish message
  | _ => []

/-- What a history delivers, one message after the other. -/
def delivered (s : Subscribers) : List (SubscriberOperation α) → List (Nat × α)
  | [] => []
  | o :: history => s.told o ++ (s.perform o).delivered history

/-- The subscriptions of a history in their order, each with the number that it is answered with and
with what comes after it. -/
def subscriptions (s : Subscribers) :
    List (SubscriberOperation α) → List (Nat × List (SubscriberOperation α))
  | [] => []
  | .subscribe :: history =>
    (s.subscribe.2, history) :: s.subscribe.1.subscriptions history
  | .unsubscribe id :: history => (s.unsubscribe id).1.subscriptions history
  | .publish _ :: history => s.subscriptions history

/-- What the listener with a number hears of what is delivered. -/
def heard (id : Nat) (delivered : List (Nat × α)) : List α :=
  (delivered.filter (·.1 == id)).map (·.2)

/-- What is published until a number is unsubscribed for the first time. -/
def share (id : Nat) (later : List (SubscriberOperation α)) : List α :=
  (later.takeWhile (!·.ends id)).filterMap (·.message?)

/-- A number that is never unsubscribed. -/
def lasts (id : Nat) (later : List (SubscriberOperation α)) : Bool := !later.any (·.ends id)

/-- The numbers of the subscriptions that have not ended, in the order of the subscriptions. -/
def live (history : List (SubscriberOperation α)) : List Nat :=
  ((subscriptions {} history).filter fun (id, later) => lasts id later).map (·.1)

section

variable (id other : Nat) (message : α) (later : List (SubscriberOperation α))

@[simp] theorem share_nil : share id ([] : List (SubscriberOperation α)) = [] := rfl

@[simp] theorem share_subscribe : share id (.subscribe :: later) = share id later := rfl

@[simp] theorem share_publish : share id (.publish message :: later) = message :: share id later :=
  rfl

@[simp] theorem share_unsubscribe :
    share id (.unsubscribe other :: later) = if other = id then [] else share id later := by
  by_cases same : other = id
  · simp [share, SubscriberOperation.ends, same]
  · simp [share, SubscriberOperation.ends, SubscriberOperation.message?, same]

@[simp] theorem lasts_nil : lasts id ([] : List (SubscriberOperation α)) = true := rfl

@[simp] theorem lasts_subscribe : lasts id (.subscribe :: later) = lasts id later := rfl

@[simp] theorem lasts_publish : lasts id (.publish message :: later) = lasts id later := rfl

@[simp] theorem lasts_unsubscribe :
    lasts id (.unsubscribe other :: later) = (lasts id later && other != id) := by
  rw [Bool.and_comm]
  simp only [lasts, List.any_cons, Bool.not_or]
  rfl

end

/-! ## Numbers -/

/-- The numbers of the listeners are ascending and have been given out. -/
structure Orderly (s : Subscribers) : Prop where
  ascending : s.ids.Pairwise (· < ·)
  issued : ∀ id ∈ s.ids, id ≤ s.issued

theorem mem_subscribe (s : Subscribers) (id : Nat) :
    id ∈ s.subscribe.1.ids ↔ id ∈ s.ids ∨ id = s.issued + 1 := by
  simp [subscribe]

theorem mem_unsubscribe (s : Subscribers) (id other : Nat) :
    id ∈ (s.unsubscribe other).1.ids ↔ id ∈ s.ids ∧ id ≠ other := by
  simp [unsubscribe]

theorem Orderly.subscribe {s : Subscribers} (h : s.Orderly) : s.subscribe.1.Orderly where
  ascending := by
    refine List.pairwise_append.2 ⟨h.ascending, List.pairwise_singleton _ _, ?_⟩
    intro id mem new hnew
    rw [List.mem_singleton.1 hnew]
    exact Nat.lt_succ_of_le (h.issued id mem)
  issued := by
    intro id mem
    rcases (mem_subscribe s id).1 mem with old | new
    · exact Nat.le_succ_of_le (h.issued id old)
    · exact Nat.le_of_eq new

theorem Orderly.unsubscribe {s : Subscribers} (h : s.Orderly) (id : Nat) :
    (s.unsubscribe id).1.Orderly where
  ascending := h.ascending.filter _
  issued other mem := h.issued other ((mem_unsubscribe s other id).1 mem).1

theorem Orderly.perform {s : Subscribers} (h : s.Orderly) (o : SubscriberOperation α) :
    (s.perform o).Orderly := by
  cases o with
  | subscribe => exact h.subscribe
  | unsubscribe id => exact h.unsubscribe id
  | publish => exact h

/-- A subscription gets a number above all that have been given out. -/
theorem issued_lt_of_mem {s : Subscribers} {history : List (SubscriberOperation α)} {id : Nat}
    {later : List (SubscriberOperation α)} (h : (id, later) ∈ s.subscriptions history) :
    s.issued < id := by
  induction history generalizing s with
  | nil => cases h
  | cons o history ih =>
    cases o with
    | subscribe =>
      rcases List.mem_cons.1 h with first | rest
      · cases first
        exact Nat.lt_succ_self _
      · exact Nat.lt_of_succ_lt (ih rest)
    | unsubscribe =>
      have above := ih h
      exact above
    | publish => exact ih h

theorem pairwise_subscriptions (s : Subscribers) (history : List (SubscriberOperation α)) :
    (s.subscriptions history).Pairwise (·.1 < ·.1) := by
  induction history generalizing s with
  | nil => exact .nil
  | cons o history ih =>
    cases o with
    | subscribe => exact List.pairwise_cons.2 ⟨fun _ mem => issued_lt_of_mem mem, ih _⟩
    | unsubscribe | publish => exact ih _

/-! ## Who hears what -/

theorem heard_append (id : Nat) (l m : List (Nat × α)) :
    heard id (l ++ m) = heard id l ++ heard id m := by
  simp [heard]

theorem heard_publish {s : Subscribers} (h : s.Orderly) (id : Nat) (message : α) :
    heard id (s.publish message) = if id ∈ s.ids then [message] else [] := by
  have apart : s.ids.Nodup := h.ascending.imp Nat.ne_of_lt
  have once : s.ids.filter (· == id) = if id ∈ s.ids then [id] else [] := by
    rw [List.filter_beq, apart.count]
    split <;> rfl
  have hears : heard id (s.publish message) = (s.ids.filter (· == id)).map fun _ => message := by
    simp [heard, publish, List.filter_map, Function.comp_def]
  rw [hears, once]
  split <;> rfl

/-- Who has been given a number hears his share of what follows if he is still subscribed, and
nothing if he is not. -/
theorem heard_delivered {s : Subscribers} (h : s.Orderly) {id : Nat} (issued : id ≤ s.issued)
    (history : List (SubscriberOperation α)) :
    heard id (s.delivered history) = if id ∈ s.ids then share id history else [] := by
  induction history generalizing s with
  | nil => simp [delivered, heard]
  | cons o history ih =>
    have follows := ih (h.perform o)
    rw [delivered, heard_append]
    cases o with
    | subscribe =>
      have old : id ≠ s.issued + 1 := Nat.ne_of_lt (Nat.lt_succ_of_le issued)
      rw [share_subscribe, follows (Nat.le_succ_of_le issued)]
      simp only [perform, mem_subscribe, old, or_false]
      rfl
    | unsubscribe other =>
      rw [share_unsubscribe, follows issued]
      simp only [perform, mem_unsubscribe]
      by_cases same : other = id
      · simp [same, told, heard]
      · simp [same, Ne.symm same, told, heard]
    | publish message =>
      rw [told, heard_publish h, share_publish, perform, ih h issued]
      split
      · rfl
      · rfl

/-- Who subscribes hears his share of what follows, and nothing of what was before. -/
theorem heard_of_mem_subscriptions {s : Subscribers} (h : s.Orderly)
    {history later : List (SubscriberOperation α)} {id : Nat}
    (subscribed : (id, later) ∈ s.subscriptions history) :
    heard id (s.delivered history) = share id later := by
  induction history generalizing s with
  | nil => cases subscribed
  | cons o history ih =>
    rw [delivered, heard_append]
    cases o with
    | subscribe =>
      rcases List.mem_cons.1 subscribed with first | rest
      · cases first
        have mem : s.subscribe.1.issued ∈ s.subscribe.1.ids := (mem_subscribe s _).2 (.inr rfl)
        have follows := heard_delivered h.subscribe (Nat.le_refl _) later
        rw [if_pos mem] at follows
        exact follows
      · exact ih h.subscribe rest
    | unsubscribe other => exact ih (h.unsubscribe other) subscribed
    | publish message =>
      have new : id ∉ s.ids := fun mem =>
        Nat.not_lt_of_le (h.issued id mem) (issued_lt_of_mem subscribed)
      rw [told, heard_publish h, if_neg new]
      exact ih h subscribed

theorem subscribed_of_delivered {s : Subscribers} {history : List (SubscriberOperation α)}
    {id : Nat} {message : α} (h : (id, message) ∈ s.delivered history) :
    id ∈ s.ids ∨ ∃ later, (id, later) ∈ s.subscriptions history := by
  induction history generalizing s with
  | nil => cases h
  | cons o history ih =>
    rw [delivered, List.mem_append] at h
    cases o with
    | subscribe =>
      rcases ih (h.resolve_left List.not_mem_nil) with mem | ⟨later, mem⟩
      · rcases (mem_subscribe s id).1 mem with old | new
        · exact .inl old
        · rw [new]
          exact .inr ⟨history, List.mem_cons_self⟩
      · exact .inr ⟨later, List.mem_cons_of_mem _ mem⟩
    | unsubscribe other =>
      rcases ih (h.resolve_left List.not_mem_nil) with mem | mem
      · exact .inl ((mem_unsubscribe s id other).1 mem).1
      · exact .inr mem
    | publish =>
      rcases h with now | later
      · obtain ⟨listener, mem, same⟩ := List.mem_map.1 now
        cases same
        exact .inl mem
      · exact ih later

/-! ## Who is subscribed -/

/-- The listeners that a history leaves are those it found and those that have subscribed, without
the ones whose subscription has ended since. -/
theorem ids_after (s : Subscribers) (history : List (SubscriberOperation α)) :
    (s.after history).ids = s.ids.filter (lasts · history) ++
      ((s.subscriptions history).filter fun (id, later) => lasts id later).map (·.1) := by
  induction history generalizing s with
  | nil =>
    have stay : s.ids.filter (lasts · ([] : List (SubscriberOperation α))) = s.ids :=
      List.filter_eq_self.2 fun _ _ => rfl
    rw [stay]
    exact (List.append_nil _).symm
  | cons o history ih =>
    rw [show s.after (o :: history) = (s.perform o).after history from rfl, ih]
    cases o with
    | subscribe =>
      simp only [perform, subscribe, subscriptions, lasts_subscribe, List.filter_append,
        List.append_assoc]
      congr 1
      by_cases stays : lasts (s.issued + 1) history = true
      · simp [stays]
      · simp [stays]
    | unsubscribe id =>
      simp only [perform, unsubscribe, subscriptions, lasts_unsubscribe, List.filter_filter,
        bne_comm]
    | publish => rfl

theorem ids_after_live (history : List (SubscriberOperation α)) :
    (({} : Subscribers).after history).ids = live history := by
  rw [ids_after]
  rfl

/-! ## Every history -/

/-- How listeners are served along a history, and what is left in the end. -/
structure Served (history : List (SubscriberOperation α)) : Prop where
  /-- Every subscription gets a number of its own, the later ones the greater ones. -/
  numbers : (subscriptions {} history).Pairwise (·.1 < ·.1)
  /-- A listener hears exactly what is published after its subscription until the first time that
  its number is unsubscribed, each message once and in the order in which they are published. -/
  heard : ∀ id later, (id, later) ∈ subscriptions {} history →
    heard id (delivered {} history) = share id later
  /-- Nobody hears anything who has not subscribed. -/
  subscribed : ∀ id message, (id, message) ∈ delivered {} history →
    ∃ later, (id, later) ∈ subscriptions {} history
  /-- The next message reaches the live listeners in the order in which they have subscribed. -/
  publish : ∀ message : α,
    (after {} history).publish message = (live history).map (·, message)
  /-- An unsubscription tells whether the listener was live. -/
  unsubscribe : ∀ id, ((after {} history).unsubscribe id).2 = true ↔ id ∈ live history
  /-- It takes the next message away from that listener and from nobody else. -/
  others : ∀ id (message : α), ((after {} history).unsubscribe id).1.publish message =
    ((after {} history).publish message).filter (·.1 != id)
  size : (after {} history).size = (live history).length

/-- **Listeners hear exactly what they have subscribed for**, whatever has been subscribed,
unsubscribed and published before, between and after. -/
theorem listeners_served (history : List (SubscriberOperation α)) : Served history := by
  have orderly : ({} : Subscribers).Orderly := ⟨.nil, nofun⟩
  have listeners := ids_after_live history
  constructor
  case numbers => exact pairwise_subscriptions _ history
  case heard => exact fun id later => heard_of_mem_subscriptions orderly
  case subscribed =>
    intro id message told
    exact (subscribed_of_delivered told).resolve_left List.not_mem_nil
  case publish =>
    intro message
    rw [← listeners]
    rfl
  case unsubscribe =>
    intro id
    rw [← listeners]
    exact List.contains_iff_mem
  case others =>
    intro id message
    simp only [Subscribers.publish, Subscribers.unsubscribe, List.filter_map]
    rfl
  case size =>
    rw [← listeners]
    rfl

/-- A listener that leaves takes nobody along, also when it leaves twice. -/
example :
    let history : List (SubscriberOperation Char) :=
      [.subscribe, .publish 'a', .subscribe, .publish 'b', .unsubscribe 1, .subscribe,
        .publish 'c', .unsubscribe 1, .publish 'd']
    delivered {} history =
      [(1, 'a'), (1, 'b'), (2, 'b'), (2, 'c'), (3, 'c'), (2, 'd'), (3, 'd')] := by
  decide

end Subscribers

end Trainer51
