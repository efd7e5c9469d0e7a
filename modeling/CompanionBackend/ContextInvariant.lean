import Mathlib.Data.Int.ConditionallyCompleteOrder
import Mathlib.Data.List.Infix
import Mathlib.Order.Monotone.Basic
import CompanionBackend.SessionContext

/-!
# What a stored session context looks like

The codec prints numbers with fourteen digits, so a number of fewer than fifteen digits is read as
it was written. The stored list keeps its bounds and its keys whatever the numbers are; it is
sorted as far as the turn indices are exact.
-/
namespace CompanionBackend.ContextInvariant

open ProviderEvents Runs SessionContext
open TurnRecords (VoiceCallTurn)

variable {ρ : Type} {C : Codec ρ} {print : ℤ → ℤ} {T : Texts} {callId : Text}

/-- A number that is printed with all its digits. -/
def Exact (n : ℤ) : Prop := -10 ^ 14 < n ∧ n < 10 ^ 14

instance (n : ℤ) : Decidable (Exact n) := inferInstanceAs (Decidable (_ ∧ _))

/-- The item with its numbers as they are printed. -/
def printed (print : ℤ → ℤ) (x : Item) : Item :=
  { x with turnIndex := print x.turnIndex, visibleFrom := print x.visibleFrom }

/-- What is asked of the codec: a state is decoded as it was encoded, but for its numbers, which are
rounded to fourteen digits; and a number that is read as an exact one is that number. -/
structure Faithful (C : Codec ρ) (print : ℤ → ℤ) : Prop where
  decode_encode : ∀ s raw, C.encode s = some raw →
    C.decode raw = some (s.userId, some (s.items.map (printed print)))
  print_mono : Monotone print
  print_print : ∀ n, print (print n) = print n
  print_eq : ∀ n m, Exact m → (print n = m ↔ n = m)
  number_eq : ∀ n m, Exact m → C.number n = some m → n = m

/-- The items of a value. -/
def itemsOf (C : Codec ρ) (cache : Option ρ) : List Item :=
  ((cache.bind C.decode).bind Prod.snd).getD []

/-- Few items, each key once, in the order of the turns, and those of exact turns in the order of
their positions. -/
structure ListSound (items : List Item) : Prop where
  count : items.length ≤ maxItems
  unique : (items.map Item.key).Nodup
  byTurn : items.Pairwise fun a b => a.turnIndex ≤ b.turnIndex
  byPosition : (items.filter fun x => Exact x.turnIndex).Pairwise fun a b => a.position ≤ b.position

structure ValueSound (C : Codec ρ) (print : ℤ → ℤ) (cache : Option ρ) : Prop where
  bytes : ∀ raw, cache = some raw → C.size raw ≤ maxBytes
  list : ListSound (itemsOf C cache)
  printed : ∀ x ∈ itemsOf C cache, printed print x = x

theorem none_sound : ValueSound C print none :=
  ⟨nofun, ⟨Nat.zero_le _, .nil, .nil, .nil⟩, nofun⟩

/-! ### Printing -/

theorem exact_print (h : Faithful C print) (n : ℤ) : Exact (print n) ↔ Exact n := by
  constructor
  · intro hn
    rwa [← (h.print_eq n (print n) hn).mp rfl] at hn
  · intro hn
    rwa [(h.print_eq n n hn).mpr rfl]

@[simp] theorem printed_key (x : Item) : (printed print x).key = x.key := rfl

theorem printed_printed (h : Faithful C print) (x : Item) :
    printed print (printed print x) = printed print x := by
  simp [printed, h.print_print]

theorem printed_position (h : Faithful C print) {x : Item} (hx : Exact x.turnIndex) :
    (printed print x).position = x.position := by
  simp [Item.position, printed, (h.print_eq _ _ hx).mpr rfl]

/-- A list that is sorted before it is printed. -/
theorem map_printed_sound (h : Faithful C print) {items : List Item}
    (hcount : items.length ≤ maxItems) (hunique : (items.map Item.key).Nodup)
    (hsorted : items.Pairwise fun a b => a.position ≤ b.position) :
    ListSound (items.map (printed print)) := by
  constructor
  · rwa [List.length_map]
  · rwa [List.map_map]
  · refine List.pairwise_map.mpr (hsorted.imp fun {a b} hab => h.print_mono ?_)
    exact (Prod.Lex.le_iff.mp hab).elim le_of_lt fun heq => heq.1.le
  · rw [List.filter_map, List.pairwise_map]
    refine (hsorted.filter _).imp_of_mem fun {a b} ha hb hab => ?_
    have hexact : ∀ x ∈ items.filter ((fun x : Item => decide (Exact x.turnIndex)) ∘ printed print),
        Exact x.turnIndex := by
      intro x hx
      exact (exact_print h _).mp (of_decide_eq_true (List.mem_filter.mp hx).2)
    rwa [printed_position h (hexact a ha), printed_position h (hexact b hb)]

/-! ### Values that are written -/

theorem itemsOf_encode (h : Faithful C print) {s : CacheState} {raw : ρ}
    (hraw : C.encode s = some raw) : itemsOf C (some raw) = s.items.map (printed print) := by
  simp [itemsOf, h.decode_encode s raw hraw]

theorem encode_sound (h : Faithful C print) {s : CacheState} {raw : ρ}
    (hraw : C.encode s = some raw) (hsize : C.size raw ≤ maxBytes)
    (hlist : ListSound (s.items.map (printed print))) : ValueSound C print (some raw) := by
  rw [← itemsOf_encode h hraw] at hlist
  refine ⟨fun raw' heq => Option.some.inj heq ▸ hsize, hlist, fun x hx => ?_⟩
  rw [itemsOf_encode h hraw] at hx
  obtain ⟨y, -, rfl⟩ := List.mem_map.mp hx
  exact printed_printed h y

/-- Only an encoding that is small enough is stored. -/
theorem store_cases (cache encoded : Option ρ) :
    (∃ status, store C cache encoded = (cache, ⟨status, []⟩)) ∨
    ∃ raw, encoded = some raw ∧ C.size raw ≤ maxBytes ∧
      store C cache encoded = (some raw, ⟨.ok, []⟩) := by
  unfold store
  cases encoded with
  | none => exact .inl ⟨.unavailable, rfl⟩
  | some raw =>
    by_cases hsize : maxBytes < C.size raw
    · exact .inl ⟨.tooLarge, if_pos hsize⟩
    · exact .inr ⟨raw, rfl, not_lt.mp hsize, if_neg hsize⟩

theorem fit_eq_some {userId : ℤ} {items : List Item} {raw : ρ}
    (h : fit C userId items = some raw) : ∃ n, C.encode ⟨userId, items.drop n⟩ = some raw := by
  induction items with
  | nil => exact ⟨0, h⟩
  | cons a rest ih =>
    cases rest with
    | nil => exact ⟨0, h⟩
    | cons b rest =>
      obtain ⟨whole, hwhole, hraw⟩ := Option.bind_eq_some_iff.mp h
      by_cases hsize : maxBytes < C.size whole
      · rw [if_pos hsize] at hraw
        obtain ⟨n, hn⟩ := ih hraw
        exact ⟨n + 1, hn⟩
      · rw [if_neg hsize] at hraw
        obtain rfl := Option.some.inj hraw
        exact ⟨0, hwhole⟩

/-! ### Merging and eviction -/

theorem arrange_sorted (items : List Item) :
    (arrange items).Pairwise fun a b => a.position ≤ b.position := by
  have := List.pairwise_insertionSort (fun a b : Item => a.position ≤ b.position) items
  exact this

theorem merge_unique {items : List Item} {kind : Text} {id : Option Text} {x : Option Item}
    (h : (items.map Item.key).Nodup) (hx : ∀ y ∈ x, y.kind = kind ∧ some y.id = id) :
    ((merge items kind id x).map Item.key).Nodup := by
  have hperm : (merge items kind id x).Perm _ := List.perm_insertionSort _ _
  rw [(hperm.map Item.key).nodup_iff, List.map_append, List.nodup_append]
  refine ⟨h.sublist (List.filter_sublist.map _), ?_, ?_⟩
  · cases x <;> simp
  · intro k hk k' hk' heq
    obtain ⟨y, hy, rfl⟩ := List.mem_map.mp hk
    obtain ⟨z, hz, rfl⟩ := List.mem_map.mp hk'
    obtain ⟨hkind, hid⟩ := hx z (Option.mem_toList.mp hz)
    obtain ⟨hk, hi⟩ := Prod.mk.inj heq
    have hkept := of_decide_eq_true (List.mem_filter.mp hy).2
    exact hkept.elim (fun hne => hne (hk.trans hkind)) fun hne => hne (hi ▸ hid)

/-- What is left of a merged list after the oldest items have been dropped. -/
theorem evicted_sound (h : Faithful C print) {items : List Item} {kind : Text} {id : Option Text}
    {x : Option Item} {n : ℕ} (hitems : (items.map Item.key).Nodup)
    (hx : ∀ y ∈ x, y.kind = kind ∧ some y.id = id)
    (hn : (merge items kind id x).length - maxItems ≤ n) :
    ListSound (((merge items kind id x).drop n).map (printed print)) := by
  refine map_printed_sound h ?_ ?_ ?_
  · rw [List.length_drop]
    omega
  · exact (merge_unique hitems hx).sublist ((List.drop_sublist _ _).map _)
  · exact (arrange_sorted _).sublist (List.drop_sublist _ _)

/-! ### Deliveries -/

/-- The item is the version that was sent, as far as its numbers are exact. -/
structure VersionOf (x : Item) (sent : Sent) : Prop where
  id : x.id = sent.id
  text : x.text = sent.text
  turnIndex : Exact x.turnIndex → x.turnIndex = sent.turnIndex
  visibleFrom : Exact x.visibleFrom → x.visibleFrom = sent.visibleFrom

/-- An item is left alone, or it is a recall result that was sent, now delivered. -/
def Delivered (sent : List Sent) (x y : Item) : Prop :=
  y = x ∨ x.kind = recallResult ∧ (∃ v ∈ sent, VersionOf x v) ∧
    y = { x with deliveryPending := some false }

theorem deliver_delivered (h : Faithful C print) (sent : List Sent) (x : Item) :
    Delivered sent x (deliver C sent x) := by
  unfold deliver
  by_cases hx : x.kind = recallResult ∧ sent.any (sameVersion C x) = true
  · rw [if_pos hx]
    obtain ⟨v, hv, hsame⟩ := List.any_eq_true.mp hx.2
    simp only [sameVersion, Bool.and_eq_true, decide_eq_true_eq] at hsame
    obtain ⟨⟨⟨hid, hturn⟩, hvisible⟩, htext⟩ := hsame
    exact .inr ⟨hx.1, ⟨v, hv, hid, htext, fun he => (h.number_eq _ _ he hturn).symm,
      fun he => (h.number_eq _ _ he hvisible).symm⟩, rfl⟩
  · rw [if_neg hx]
    exact .inl rfl

@[simp] theorem deliver_key (sent : List Sent) (x : Item) : (deliver C sent x).key = x.key := by
  unfold deliver
  split_ifs <;> rfl

@[simp] theorem deliver_turnIndex (sent : List Sent) (x : Item) :
    (deliver C sent x).turnIndex = x.turnIndex := by
  unfold deliver
  split_ifs <;> rfl

@[simp] theorem deliver_position (sent : List Sent) (x : Item) :
    (deliver C sent x).position = x.position := by
  unfold deliver
  split_ifs <;> rfl

theorem printed_deliver {sent : List Sent} {x : Item} (hx : printed print x = x) :
    printed print (deliver C sent x) = deliver C sent x := by
  have hturn : print x.turnIndex = x.turnIndex := congrArg Item.turnIndex hx
  have hvisible : print x.visibleFrom = x.visibleFrom := congrArg Item.visibleFrom hx
  unfold deliver
  split_ifs <;> simp [printed, hturn, hvisible]

theorem map_deliver_sound {items : List Item} {sent : List Sent} (h : ListSound items) :
    ListSound (items.map (deliver C sent)) := by
  constructor
  · rw [List.length_map]
    exact h.count
  · simpa [List.map_map, Function.comp_def] using h.unique
  · simpa [List.pairwise_map] using h.byTurn
  · simpa [List.filter_map, List.pairwise_map, Function.comp_def] using h.byPosition

/-! ### One operation -/

/-- The item that a call puts in, or the key that it takes out. -/
inductive Edits (C : Codec ρ) (T : Texts) : ContextCall → Text → Option Text → Option Item → Prop
  | append (userId : ℤ) (kind itemId : Text) (turnIndex : ℤ) (text : Text) (safe late : Bool)
      (x : Item) : incoming C (newItem kind itemId turnIndex text late) = some x →
      Edits C T (.append userId kind itemId turnIndex text safe late) kind (some itemId) (some x)
  | removeCandidate (userId : ℤ) (itemId : Option Text) :
      Edits C T (.removeCandidate userId itemId) candidateKind itemId none
  | captureTurn (owner : ℤ) (turn : VoiceCallTurn) (x : Item) :
      incoming C (newItem turnKind (Nat.toDigits 10 turn.turnIndex) turn.turnIndex
        (T.turnContent (turn.userTextFinal.getD []) (turn.assistantTextEffective.getD [])) false) =
        some x →
      Edits C T (.captureTurn (some (owner, turn))) turnKind
        (some (Nat.toDigits 10 turn.turnIndex)) (some x)

/-- What a call can do to the value. -/
inductive Outcome (C : Codec ρ) (print : ℤ → ℤ) (T : Texts) (cache : Option ρ) :
    ContextCall → Option ρ → Prop
  | kept (c : ContextCall) : Outcome C print T cache c cache
  | deleted (userId : ℤ) : Outcome C print T cache (.cleanup userId) none
  | delivered (userId : ℤ) (items : List (Option Sent)) (next : Option ρ) :
      List.Forall₂ (Delivered items.reduceOption) (itemsOf C cache) (itemsOf C next) →
      Outcome C print T cache (.markRecallDelivered userId items) next
  | edited (c : ContextCall) (kind : Text) (id : Option Text) (x : Option Item) (n : ℕ)
      (next : Option ρ) : Edits C T c kind id x →
      itemsOf C next = ((merge (itemsOf C cache) kind id x).drop n).map (printed print) →
      Outcome C print T cache c next

/-- What a call has done, and that the value is still sound. -/
def Done (C : Codec ρ) (print : ℤ → ℤ) (T : Texts) (cache : Option ρ) (c : ContextCall)
    (next : Option ρ) : Prop :=
  Outcome C print T cache c next ∧ ValueSound C print next

/-- A result that is an error goes with the old value and has no items. -/
def Refuses (cache : Option ρ) (r : Option ρ × ContextResult) : Prop :=
  r.2.status ≠ .ok → r.1 = cache ∧ r.2.items = []

theorem load_eq_ok {cache : Option ρ} {userId : ℤ} {s : CacheState}
    (h : load C cache userId = .ok s) : s.items = itemsOf C cache := by
  cases cache with
  | none =>
    obtain rfl := Except.ok.inj h
    rfl
  | some raw =>
    simp only [load] at h
    split_ifs at h
    split at h
    · cases h
    · next owner items hdecode =>
      split_ifs at h
      cases items with
      | none => cases h
      | some items =>
        obtain rfl := Except.ok.inj h
        simp [itemsOf, hdecode]

/-- The rule for `_perform`: nothing is done, the value is deleted, or the script updates it. -/
theorem perform_elim {cache : Option ρ} {row : Option CallFacts} {userId : ℤ} {op : Operation}
    {P : Option ρ × ContextResult → Prop} (herror : ∀ status, P (cache, ⟨status, []⟩))
    (hdelete : op = .delete → P (none, ⟨.ok, []⟩))
    (hupdate : ∀ s : CacheState, s.items = itemsOf C cache → P (update C cache s op)) :
    P (perform C callId cache row userId op) := by
  unfold perform
  split_ifs
  · exact herror .forbidden
  cases row with
  | none => exact herror .forbidden
  | some call =>
    dsimp only
    split_ifs
    · exact herror .forbidden
    · exact herror .closed
    · unfold context
      split_ifs with hop
      · exact hdelete hop
      · split
        · next status hload => exact herror status
        · next s hload => exact hupdate s (load_eq_ok hload)

theorem bounded_elim {cache : Option ρ} {fault : Option Fault} {r : Option ρ × ContextResult}
    {P : Option ρ → Prop} (hcache : P cache) (hr : P r.1) : P (bounded fault cache r).1 := by
  rcases fault with _ | _ | _
  · exact hr
  · exact hcache
  · exact hr

/-! ### Refusals -/

theorem store_refuses (cache encoded : Option ρ) : Refuses cache (store C cache encoded) := by
  intro hstatus
  obtain ⟨status, heq⟩ | ⟨raw, -, -, heq⟩ := store_cases (C := C) cache encoded
  · rw [heq]
    exact ⟨rfl, rfl⟩
  · rw [heq] at hstatus
    exact absurd rfl hstatus

theorem update_refuses (cache : Option ρ) (s : CacheState) (op : Operation) :
    Refuses cache (update C cache s op) := by
  cases op with
  | append x =>
    simp only [update]
    split
    · exact fun _ => ⟨rfl, rfl⟩
    · exact store_refuses cache _
  | remove kind id => exact store_refuses cache _
  | recallDelivered sent =>
    simp only [update]
    split_ifs
    · exact store_refuses cache _
    · exact fun _ => ⟨rfl, rfl⟩
  | read =>
    simp only [update]
    split
    · exact fun _ => ⟨rfl, rfl⟩
    · exact fun hstatus => absurd rfl hstatus
  | delete => exact fun hstatus => absurd rfl hstatus

theorem perform_refuses (cache : Option ρ) (row : Option CallFacts) (userId : ℤ) (op : Operation) :
    Refuses cache (perform C callId cache row userId op) :=
  perform_elim (fun _ _ => ⟨rfl, rfl⟩) (fun _ hstatus => absurd rfl hstatus)
    fun s _ => update_refuses cache s op

/-- What is refused but for a second that has passed is refused with the old value. -/
theorem bounded_refuses {cache : Option ρ} {fault : Option Fault} {r : Option ρ × ContextResult}
    (hr : Refuses cache r) (hok : (bounded fault cache r).2.status ≠ .ok)
    (hunavailable : (bounded fault cache r).2.status ≠ .unavailable) :
    (bounded fault cache r).1 = cache := by
  rcases fault with _ | _ | _
  · exact (hr hok).1
  · rfl
  · exact absurd rfl hunavailable

theorem append_refuses (cache : Option ρ) (row : Option CallFacts) (userId : ℤ)
    (kind itemId : Text) (turnIndex : ℤ) (text : Text) (safe late : Bool) :
    Refuses cache (append C T callId cache row none userId kind itemId turnIndex text safe late) := by
  unfold append
  split
  · exact fun _ => ⟨rfl, rfl⟩
  · exact perform_refuses cache row userId _

theorem answer_refuses (cache : Option ρ) (row : Option CallFacts) (fault : Option Fault)
    (c : ContextCall) (hok : (answer C T callId cache row fault c).2.status ≠ .ok)
    (hunavailable : (answer C T callId cache row fault c).2.status ≠ .unavailable) :
    (answer C T callId cache row fault c).1 = cache := by
  cases c with
  | append userId kind itemId turnIndex text safe late =>
    simp only [answer, append] at hok hunavailable ⊢
    split at hok
    · rfl
    · next hrefusal =>
      simp only [hrefusal] at hunavailable ⊢
      exact bounded_refuses (perform_refuses cache row userId _) hok hunavailable
  | markRecallDelivered userId items =>
    simp only [answer] at hok hunavailable ⊢
    split_ifs at hok hunavailable ⊢
    · rfl
    · exact bounded_refuses (perform_refuses cache row userId _) hok hunavailable
  | query userId turnIndex query =>
    simp only [answer] at hok hunavailable ⊢
    split_ifs at hok hunavailable ⊢
    · rfl
    · exact bounded_refuses (perform_refuses cache row userId _) hok hunavailable
    · exact absurd rfl hok
  | cleanup userId => exact bounded_refuses (perform_refuses cache row userId _) hok hunavailable
  | removeCandidate userId itemId =>
    exact bounded_refuses (perform_refuses cache row userId _) hok hunavailable
  | captureTurn pair =>
    refine bounded_refuses ?_ hok hunavailable
    split
    · exact fun _ => ⟨rfl, rfl⟩
    · split_ifs
      · exact fun _ => ⟨rfl, rfl⟩
      · exact append_refuses cache row _ _ _ _ _ _ _

/-- No item is returned before its turn. -/
theorem query_visible (cache : Option ρ) (row : Option CallFacts) (fault : Option Fault)
    (userId turnIndex : ℤ) (query : Text) :
    ∀ x ∈ (answer C T callId cache row fault (.query userId turnIndex query)).2.items,
      x.visibleFrom ≤ turnIndex := by
  intro x hx
  simp only [answer] at hx
  split_ifs at hx with hindex hstatus
  · cases hx
  · have hr : Refuses cache (perform C callId cache row userId .read) :=
      perform_refuses cache row userId .read
    rcases fault with _ | _ | _
    · exact absurd ((hr hstatus).2 ▸ hx) (List.not_mem_nil)
    · cases hx
    · cases hx
  · have hkept := (List.mem_filter.mp hx).2
    rw [Bool.and_eq_true, decide_eq_true_eq] at hkept
    exact hkept.1

/-! ### Outcomes -/

/-- The value is the old one, or it has the edited list less some of the oldest items. -/
def Edited (C : Codec ρ) (print : ℤ → ℤ) (cache : Option ρ) (kind : Text) (id : Option Text)
    (x : Option Item) (next : Option ρ) : Prop :=
  next = cache ∨ ValueSound C print next ∧
    ∃ n, itemsOf C next = ((merge (itemsOf C cache) kind id x).drop n).map (printed print)

theorem Edited.done {cache next : Option ρ} {c : ContextCall} {kind : Text} {id : Option Text}
    {x : Option Item} (hv : ValueSound C print cache) (hc : Edits C T c kind id x)
    (h : Edited C print cache kind id x next) : Done C print T cache c next := by
  obtain rfl | ⟨hnext, n, hitems⟩ := h
  · exact ⟨.kept c, hv⟩
  · exact ⟨.edited c kind id x n next hc hitems, hnext⟩

theorem written_edited (h : Faithful C print) {cache : Option ρ} (hv : ValueSound C print cache)
    {userId : ℤ} {kind : Text} {id : Option Text} {x : Option Item}
    (hx : ∀ y ∈ x, y.kind = kind ∧ some y.id = id) :
    let items := merge (itemsOf C cache) kind id x
    Edited C print cache kind id x
      (store C cache (fit C userId (items.drop (items.length - maxItems)))).1 := by
  intro items
  obtain ⟨status, heq⟩ | ⟨raw, hfit, hsize, heq⟩ :=
    store_cases (C := C) cache (fit C userId (items.drop (items.length - maxItems)))
  · exact .inl (by rw [heq])
  · obtain ⟨n, hencode⟩ := fit_eq_some hfit
    rw [List.drop_drop] at hencode
    rw [heq]
    refine .inr ⟨encode_sound h hencode hsize ?_, _, itemsOf_encode h hencode⟩
    exact evicted_sound h hv.list.unique hx (Nat.le_add_right _ _)

theorem incoming_key {x y : Item} (h : incoming C x = some y) :
    y.kind = x.kind ∧ some y.id = some x.id := by
  obtain ⟨t, -, ht⟩ := Option.bind_eq_some_iff.mp h
  obtain ⟨v, -, rfl⟩ := Option.map_eq_some_iff.mp ht
  exact ⟨rfl, rfl⟩

theorem update_append (h : Faithful C print) {cache : Option ρ} (hv : ValueSound C print cache)
    {s : CacheState} (hs : s.items = itemsOf C cache) {x : Item} {c : ContextCall}
    (hc : ∀ y, incoming C x = some y → Edits C T c x.kind (some x.id) (some y)) :
    Done C print T cache c (update C cache s (.append x)).1 := by
  simp only [update]
  split
  · exact ⟨.kept c, hv⟩
  · next y hy =>
    obtain ⟨hkind, hid⟩ := incoming_key hy
    rw [hs, hkind, hid]
    refine (written_edited h hv ?_).done hv (hc y hy)
    rintro _ ⟨⟩
    exact incoming_key hy

theorem update_delivered (h : Faithful C print) {cache : Option ρ} (hv : ValueSound C print cache)
    {s : CacheState} (hs : s.items = itemsOf C cache) (userId : ℤ) (items : List (Option Sent)) :
    Done C print T cache (.markRecallDelivered userId items)
      (update C cache s (.recallDelivered items.reduceOption)).1 := by
  simp only [update]
  split_ifs with hsome
  · obtain ⟨status, heq⟩ | ⟨raw, hencode, hsize, heq⟩ := store_cases (C := C) cache
      (C.encode ⟨s.userId, s.items.map (deliver C items.reduceOption)⟩)
    · rw [heq]
      exact ⟨.kept _, hv⟩
    · have hprinted : (s.items.map (deliver C items.reduceOption)).map (printed print) =
          (itemsOf C cache).map (deliver C items.reduceOption) := by
        rw [List.map_map, hs]
        exact List.map_congr_left fun x hx => printed_deliver (hv.printed x hx)
      rw [heq]
      refine ⟨.delivered userId items _ ?_, encode_sound h hencode hsize ?_⟩
      · rw [itemsOf_encode h hencode, hprinted, List.forall₂_map_right_iff]
        exact List.forall₂_same.mpr fun x _ => deliver_delivered h _ x
      · rw [hprinted]
        exact map_deliver_sound hv.list
  · exact ⟨.kept _, hv⟩

theorem append_done (h : Faithful C print) {cache : Option ρ} (hv : ValueSound C print cache)
    {row : Option CallFacts} {fault : Option Fault} {userId : ℤ} {kind itemId : Text}
    {turnIndex : ℤ} {text : Text} {safe late : Bool} {c : ContextCall}
    (hc : ∀ y, incoming C (newItem kind itemId turnIndex text late) = some y →
      Edits C T c kind (some itemId) (some y)) :
    Done C print T cache c
      (append C T callId cache row fault userId kind itemId turnIndex text safe late).1 := by
  unfold append
  split
  · exact ⟨.kept c, hv⟩
  · refine bounded_elim (P := Done C print T cache c) ⟨.kept c, hv⟩ ?_
    exact perform_elim (P := fun r => Done C print T cache c r.1) (fun _ => ⟨.kept c, hv⟩) nofun
      fun s hs => update_append h hv hs hc

/-- What a call does to a sound value. -/
theorem answer_done (h : Faithful C print) {cache : Option ρ} (hv : ValueSound C print cache)
    (row : Option CallFacts) (fault : Option Fault) (c : ContextCall) :
    Done C print T cache c (answer C T callId cache row fault c).1 := by
  have hkept : Done C print T cache c cache := ⟨.kept c, hv⟩
  cases c with
  | append userId kind itemId turnIndex text safe late =>
    exact append_done h hv fun y hy => .append userId kind itemId turnIndex text safe late y hy
  | markRecallDelivered userId items =>
    simp only [answer]
    split_ifs
    · exact hkept
    · refine bounded_elim (P := Done C print T cache _) hkept ?_
      exact perform_elim (P := fun r => Done C print T cache _ r.1) (fun _ => hkept) nofun
        fun s hs => update_delivered h hv hs userId items
  | query userId turnIndex query =>
    have hread : (bounded fault cache (perform C callId cache row userId .read)).1 = cache := by
      refine bounded_elim (P := fun next => next = cache) rfl ?_
      refine perform_elim (P := fun r => r.1 = cache) (fun _ => rfl) nofun fun s _ => ?_
      simp only [update]
      split <;> rfl
    simp only [answer]
    split_ifs
    · exact hkept
    · exact hread.symm ▸ hkept
    · exact hread.symm ▸ hkept
  | cleanup userId =>
    refine bounded_elim (P := Done C print T cache _) hkept ?_
    have hdeleted : Done C print T cache (.cleanup userId) none := ⟨.deleted userId, none_sound⟩
    exact perform_elim (P := fun r => Done C print T cache _ r.1) (fun _ => hkept)
      (fun _ => hdeleted) fun _ _ => hdeleted
  | removeCandidate userId itemId =>
    refine bounded_elim (P := Done C print T cache _) hkept ?_
    refine perform_elim (P := fun r => Done C print T cache _ r.1) (fun _ => hkept) nofun
      fun s hs => ?_
    simp only [update, hs]
    exact (written_edited h hv (by simp)).done hv (.removeCandidate userId itemId)
  | captureTurn pair =>
    refine bounded_elim (P := Done C print T cache _) hkept ?_
    split
    · exact hkept
    · next owner turn =>
      split_ifs
      · exact hkept
      · exact append_done h hv fun y hy => .captureTurn owner turn y hy

/-! ### A codec -/

/-- The bytes of a character in a JSON string. -/
def charSize (c : Char) : ℕ := if c = '"' ∨ c = '\\' ∨ c = '/' then 2 else c.utf8Size

def numberSize (n : ℤ) : ℕ := (Nat.toDigits 10 n.natAbs).length + if n < 0 then 1 else 0

/-- The bytes of `{"kind":"…","id":"…","turn_index":…,"visible_from":…,"text":"…"}`. -/
def itemSize (x : Item) : ℕ :=
  59 + ((x.kind ++ x.id ++ x.text).map charSize).sum + numberSize x.turnIndex +
    numberSize x.visibleFrom + (x.deliveryPending.elim 0 fun b => if b then 24 else 25)

/-- A codec that prints no control character and no number of more than sixteen digits. -/
def jsonCodec (print : ℤ → ℤ) : Codec CacheState where
  encode s := some { s with items := s.items.map (printed print) }
  decode raw := some (raw.userId, some raw.items)
  size raw := 30 + numberSize raw.userId + (raw.items.map fun x => itemSize x + 1).sum
  number := some
  read s := some (s.items.map (printed print))

/-- Fourteen digits, the last one rounded to even. -/
def fourteenDigits (n : ℤ) : ℤ :=
  let unit : ℤ := 10 ^ ((Nat.toDigits 10 n.natAbs).length - 14)
  let q := n / unit
  let r := 2 * (n % unit)
  unit * if r < unit ∨ r = unit ∧ q % 2 = 0 then q else q + 1

theorem jsonCodec_faithful : Faithful (jsonCodec id) id where
  decode_encode s raw h := by
    obtain rfl := Option.some.inj h
    rfl
  print_mono := monotone_id
  print_print _ := rfl
  print_eq _ _ _ := Iff.rfl
  number_eq _ _ _ h := Option.some.inj h

def plainTexts : Texts where
  isSpace c := c.isWhitespace
  holds query text := query <:+: text
  turnContent user assistant := user ++ assistant

/-! ### Runs -/

/-- What holds of the value of a call at every moment, and of whatever is asked of it next. -/
structure ContextSound (C : Codec ρ) (print : ℤ → ℤ) (T : Texts) (callId : Text)
    (cache : Option ρ) : Prop where
  value : ValueSound C print cache
  failed : ∀ row fault c, (answer C T callId cache row fault c).2.status ≠ .ok →
    (answer C T callId cache row fault c).2.status ≠ .unavailable →
    (answer C T callId cache row fault c).1 = cache
  outcome : ∀ row fault c, Outcome C print T cache c (answer C T callId cache row fault c).1
  queried : ∀ row fault userId turnIndex query,
    ∀ x ∈ (answer C T callId cache row fault (.query userId turnIndex query)).2.items,
      x.visibleFrom ≤ turnIndex

theorem contexts_sound (h : Faithful C print) {cache : Option ρ}
    (hreachable : (contexts C T callId).Reachable cache) : ContextSound C print T callId cache := by
  have hv : ValueSound C print cache := by
    refine Machine.reachable_invariant ?_ ?_ hreachable
    · rintro _ rfl
      exact none_sound
    · intro cache i next hv hi
      cases i with
      | call row fault c =>
        obtain rfl := Option.some.inj hi
        exact (answer_done h hv row fault c).2
      | expire =>
        obtain rfl := Option.some.inj hi
        exact none_sound
  exact ⟨hv, fun row fault c => answer_refuses cache row fault c,
    fun row fault c => (answer_done h hv row fault c).1,
    fun row fault => query_visible cache row fault⟩

def connectedRow : Option CallFacts := some ⟨1, false, .connected⟩

/-- A recall result comes late, the turn before it is kept, the result is submitted, and the first
turn is asked for again. -/
def recallCalls : List ContextInput :=
  [.call connectedRow none (.append 1 recallResult ['a'] 2 ['t', 'e', 'a'] true true),
    .call connectedRow none (.append 1 turnKind ['1'] 1 ['h', 'i'] true false),
    .call connectedRow none (.markRecallDelivered 1 [some ⟨['a'], ['t', 'e', 'a'], 2, 3⟩]),
    .call connectedRow none (.query 1 2 []),
    .call connectedRow none (.append 1 turnKind ['1'] 1 ['h', 'o'] true false)]

theorem contexts_sound_recall :
    let cache := (contexts (jsonCodec id) plainTexts ['c']).after none recallCalls
    itemsOf (jsonCodec id) cache = [⟨turnKind, ['1'], 1, 1, ['h', 'o'], none⟩,
      ⟨recallResult, ['a'], 2, 3, ['t', 'e', 'a'], some false⟩] ∧
      ContextSound (jsonCodec id) id plainTexts ['c'] cache :=
  ⟨by decide, contexts_sound jsonCodec_faithful
    (Machine.reachable_after rfl (by decide))⟩

/-- The second of an append may pass after its script has run; and two turn indices of fifteen digits
are printed as one, when the items are no longer in the order of their positions. -/
theorem written_unavailable_and_unsorted :
    let C := jsonCodec fourteenDigits
    let late := answer C plainTexts ['c'] none connectedRow (some .after)
      (.append 1 turnKind ['1'] 1 ['h', 'i'] true false)
    let M := contexts C plainTexts ['c']
    let cache := M.after none
      [.call connectedRow none (.append 1 turnKind ['z'] 100000000000001 ['h', 'i'] true false),
        .call connectedRow none
          (.append 1 candidateKind ['a'] 100000000000002 ['h', 'i'] true false)]
    late.2.status = .unavailable ∧ late.1 ≠ none ∧ M.Reachable cache ∧
      (itemsOf C cache).map Item.turnIndex = [100000000000000, 100000000000000] ∧
      ¬ (itemsOf C cache).Pairwise fun a b => a.position ≤ b.position :=
  ⟨by decide, by decide, Machine.reachable_after rfl (by decide),
    by decide, by decide⟩

end CompanionBackend.ContextInvariant
