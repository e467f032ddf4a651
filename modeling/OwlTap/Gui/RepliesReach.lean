import OwlTap.Gui.DaemonClient

/-!
# Replies reach their own calls

A promise is registered from the moment a call has its number until it is fulfilled, or until the
call has given up. The reader looks for the promise under the low 32 bits of the number in a reply.
As long as no reply has a number out of range whose low bits are those of a call that waits, a call
returns what a reply with its own number says (`replies_reach_own_call`).
-/

namespace OwlTap.Gui

open OwlTap

/-! ### Numbers -/

theorem toInt32_of_range {n : ℤ} (hlo : -2 ^ 31 ≤ n) (hhi : n < 2 ^ 31) : toInt32 n = n := by
  unfold toInt32
  rw [BitVec.toInt_ofInt]
  exact Int.bmod_eq_of_le (by omega) (by omega)

theorem ClientCall.id_eq {c : ClientCall} (h : c.number < 2 ^ 31) : c.id = c.number :=
  toInt32_of_range (by omega) (by omega)

/-! ### What holds of a call -/

/-- The promise has not been registered. -/
def Early : CallPoint → Prop
  | .uncalled | .checked | .numbered | .threw .notConnected _ | .threw .taken _ => True
  | _ => False

/-- The promise may be registered. -/
def Open : CallPoint → Prop
  | .registered | .waiting | .sendFailed | .timedOut | .threw .unframed _ => True
  | _ => False

/-- The call has its number. -/
def Counted : CallPoint → Prop
  | .uncalled | .checked | .threw .notConnected _ => False
  | _ => True

/-- What holds of a call when so many numbers have been given and these replies have been read. -/
structure CallOk (nextId : ℕ) (replies : List Json) (c : ClientCall) : Prop where
  number : c.number < nextId
  counted : Counted c.point → c.number ≠ 0
  fresh : Early c.point → c.promise = .unset ∧ c.fulfilled = 0
  once : c.fulfilled ≤ 1
  /-- A reply that has completed it has its id. -/
  value : ∀ msg, c.promise = .value msg →
    ∃ k, c.completedBy = some k ∧ replies[k]? = some msg ∧ msg.get? "id" = some (.int c.id)
  completedBy : ∀ k, c.completedBy = some k → c.number ≠ 0 ∧ ∃ msg, c.promise = .value msg
  returned : ∀ v, c.point = .returned v → ∃ msg, c.promise = .value msg ∧ v = resultOf msg

/-- What holds of a call whose promise is registered. -/
structure EntryOk (id : ℤ) (c : ClientCall) : Prop where
  id : id = c.id
  point : Open c.point
  promise : c.promise = .unset
  fulfilled : c.fulfilled = 0

theorem not_early_of_open {p : CallPoint} (h : Open p) : ¬Early p := by
  intro he
  cases p with
  | threw cause what => cases cause <;> first | exact h | exact he
  | uncalled | checked | numbered => exact h
  | registered | waiting | sendFailed | timedOut | returned => exact he

theorem counted_of_open {p : CallPoint} (h : Open p) : Counted p := by
  cases p with
  | threw cause what => cases cause <;> first | exact h | trivial
  | uncalled | checked => exact h
  | _ => trivial

theorem CallOk.mono {m n : ℕ} {rs rs' : List Json} {c : ClientCall} (h : CallOk m rs c) (hmn : m ≤ n)
    (hrs : rs <+: rs') : CallOk n rs' c where
  number := lt_of_lt_of_le h.number hmn
  counted := h.counted
  fresh := h.fresh
  once := h.once
  value msg hv := by
    obtain ⟨k, hk, hmsg, hid⟩ := h.value msg hv
    obtain ⟨tail, rfl⟩ := hrs
    refine ⟨k, hk, ?_, hid⟩
    rw [List.getElem?_append_left (List.getElem?_eq_some_iff.mp hmsg).1, hmsg]
  completedBy := h.completedBy
  returned := h.returned

/-- A call gets to a point. -/
theorem CallOk.goTo {n : ℕ} {rs : List Json} {c : ClientCall} (h : CallOk n rs c) {point : CallPoint}
    (hcounted : Counted point → c.number ≠ 0) (hearly : Early point → Early c.point)
    (hret : ∀ v, point = .returned v → ∃ msg, c.promise = .value msg ∧ v = resultOf msg) :
    CallOk n rs { c with point } where
  number := h.number
  counted := hcounted
  fresh he := h.fresh (hearly he)
  once := h.once
  value := h.value
  completedBy := h.completedBy
  returned := hret

/-- A promise that is registered is fulfilled for the first time. -/
theorem EntryOk.fulfil {id : ℤ} {c : ClientCall} (h : EntryOk id c) (p : Promise) (by' : Option ℕ) :
    c.fulfil p by' = { c with promise := p, fulfilled := 1, completedBy := by' } := by
  unfold ClientCall.fulfil
  rw [h.promise, h.fulfilled]

/-! ### What holds of the client -/

namespace DaemonClient

/-- What holds in every state of a run. -/
structure Inv (s : DaemonClient) : Prop where
  nextId : 1 ≤ s.nextId
  calls : ∀ i, CallOk s.nextId s.replies (s.calls i)
  /-- No two calls have one number. -/
  distinct : ∀ i j, (s.calls i).number = (s.calls j).number → (s.calls i).number ≠ 0 → i = j
  entries : ∀ id i, s.pending.lookup id = some i → EntryOk id (s.calls i)

theorem inv_init : Inv {} where
  nextId := le_rfl
  calls _ := ⟨Nat.one_pos, fun h => h.elim, fun _ => ⟨rfl, rfl⟩, Nat.zero_le _, nofun, nofun, nofun⟩
  distinct _ _ _ h := absurd rfl h
  entries _ _ h := nomatch h

variable {s t : DaemonClient}

theorem update_self (i : ℕ) (c : ClientCall) : (s.update i c).calls i = c := by
  unfold DaemonClient.update
  exact Function.update_self i c s.calls

theorem update_of_ne {i j : ℕ} (h : j ≠ i) (c : ClientCall) : (s.update i c).calls j = s.calls j := by
  unfold DaemonClient.update
  exact Function.update_of_ne h c s.calls

/-- A call changes, and keeps its number. -/
theorem Inv.update (h : Inv s) {i : ℕ} {c : ClientCall} (hok : CallOk s.nextId s.replies c)
    (hnumber : c.number = (s.calls i).number) (hentry : ∀ id, s.pending.lookup id = some i → EntryOk id c) :
    Inv (s.update i c) := by
  have hnum : ∀ j, ((s.update i c).calls j).number = (s.calls j).number := by
    intro j
    by_cases hj : j = i
    · rw [hj, update_self, hnumber]
    · rw [update_of_ne hj]
  refine ⟨h.nextId, fun j => ?_, fun j k hjk hne => ?_, fun id j hlookup => ?_⟩
  · by_cases hj : j = i
    · rw [hj, update_self]
      exact hok
    · rw [update_of_ne hj]
      exact h.calls j
  · rw [hnum] at hjk hne
    rw [hnum] at hjk
    exact h.distinct j k hjk hne
  · by_cases hj : j = i
    · subst hj
      rw [update_self]
      exact hentry id hlookup
    · rw [update_of_ne hj]
      exact h.entries id j hlookup

/-- Some promises are removed. -/
theorem Inv.remove (h : Inv s) {pending : AList fun _ : ℤ => ℕ}
    (hp : ∀ id i, pending.lookup id = some i → s.pending.lookup id = some i) : Inv { s with pending } :=
  ⟨h.nextId, h.calls, h.distinct, fun id i hlookup => h.entries id i (hp id i hlookup)⟩

theorem lookup_of_lookup_erase {pending : AList fun _ : ℤ => ℕ} {id id' : ℤ} {i : ℕ}
    (h : (pending.erase id).lookup id' = some i) : id' ≠ id ∧ pending.lookup id' = some i := by
  by_cases he : id' = id
  · rw [he, AList.lookup_erase] at h
    cases h
  · exact ⟨he, by rwa [AList.lookup_erase_ne he] at h⟩

/-- A call removes its promise and throws. -/
theorem Inv.erase (h : Inv s) {i : ℕ} {cause : Cause} {what : String} (hpoint : Open (s.calls i).point)
    (hcause : ¬Early (.threw cause what)) :
    Inv { s.goTo i (.threw cause what) with pending := s.pending.erase (s.calls i).id } := by
  have hremoved : Inv { s with pending := s.pending.erase (s.calls i).id } :=
    h.remove fun id j hlookup => (lookup_of_lookup_erase hlookup).2
  have hcounted := (h.calls i).counted (counted_of_open hpoint)
  refine hremoved.update ((h.calls i).goTo (fun _ => hcounted) (fun he => absurd he hcause) nofun) rfl ?_
  intro id hlookup
  obtain ⟨hne, hlookup⟩ := lookup_of_lookup_erase hlookup
  exact absurd (h.entries id i hlookup).id hne

/-- A call goes on. -/
theorem Inv.goTo (h : Inv s) {i : ℕ} {point : CallPoint} (hcounted : Counted point → (s.calls i).number ≠ 0)
    (hearly : Early point → Early (s.calls i).point)
    (hret : ∀ v, point = .returned v → ∃ msg, (s.calls i).promise = .value msg ∧ v = resultOf msg)
    (hopen : (∀ id, s.pending.lookup id ≠ some i) ∨ Open point) : Inv (s.goTo i point) := by
  refine h.update ((h.calls i).goTo hcounted hearly hret) rfl fun id hlookup => ?_
  have hentry := h.entries id i hlookup
  exact ⟨hentry.id, hopen.resolve_left fun hno => hno id hlookup, hentry.promise, hentry.fulfilled⟩

/-- The promise of such a call is not registered. -/
theorem Inv.not_registered (h : Inv s) {i : ℕ} (hpoint : ¬Open (s.calls i).point ∨ (s.calls i).promise ≠ .unset) (id : ℤ) :
    s.pending.lookup id ≠ some i := by
  intro hlookup
  have hentry := h.entries id i hlookup
  exact hpoint.elim (fun hno => hno hentry.point) fun hno => hno hentry.promise

/-- A call takes its number. -/
theorem Inv.number (h : Inv s) {i : ℕ} (hpoint : (s.calls i).point = .checked) :
    Inv { s.update i { s.calls i with point := .numbered, number := s.nextId } with nextId := s.nextId + 1 } := by
  have hok := h.calls i
  have hfresh := hok.fresh (by rw [hpoint]; trivial)
  have hno := h.not_registered (i := i) (.inl (by rw [hpoint]; exact id))
  have hcalls : ∀ j, j ≠ i → (s.update i { s.calls i with point := .numbered, number := s.nextId }).calls j = s.calls j :=
    fun j hj => update_of_ne hj _
  refine ⟨Nat.le_add_left 1 _, fun j => ?_, fun j k hjk hne => ?_, fun id j hlookup => ?_⟩
  · by_cases hj : j = i
    · rw [hj]
      dsimp only
      rw [update_self]
      refine ⟨Nat.lt_succ_self _, fun _ => Nat.one_le_iff_ne_zero.mp h.nextId, fun _ => hfresh, hok.once, fun msg hv => ?_,
        fun k hk => ?_, nofun⟩
      · cases hfresh.1.symm.trans hv
      · obtain ⟨-, msg, hv⟩ := hok.completedBy k hk
        cases hfresh.1.symm.trans hv
    · dsimp only
      rw [hcalls j hj]
      exact (h.calls j).mono (Nat.le_succ _) (List.prefix_refl _)
  · dsimp only at hjk hne ⊢
    have hlt := fun l => (h.calls l).number
    by_cases hj : j = i
    · by_cases hk : k = i
      · rw [hj, hk]
      · rw [hj, update_self, hcalls k hk] at hjk
        exact absurd (hlt k) (by rw [← hjk]; exact lt_irrefl _)
    · by_cases hk : k = i
      · rw [hk, update_self, hcalls j hj] at hjk
        exact absurd (hlt j) (by rw [hjk]; exact lt_irrefl _)
      · rw [hcalls j hj, hcalls k hk] at hjk
        rw [hcalls j hj] at hne
        exact h.distinct j k hjk hne
  · have hj : j ≠ i := fun e => hno id (e ▸ hlookup)
    dsimp only
    rw [hcalls j hj]
    exact h.entries id j hlookup

/-- A call registers its promise. -/
theorem Inv.register (h : Inv s) {i : ℕ} (hpoint : (s.calls i).point = .numbered) :
    Inv { s.goTo i .registered with pending := s.pending.insert (s.calls i).id i } := by
  have hok := h.calls i
  have hcounted := hok.counted (by rw [hpoint]; trivial)
  have hfresh := hok.fresh (by rw [hpoint]; trivial)
  have hgone : Inv (s.goTo i .registered) := h.goTo (fun _ => hcounted) nofun nofun (.inr trivial)
  refine ⟨hgone.nextId, hgone.calls, hgone.distinct, fun id j hlookup => ?_⟩
  dsimp only at hlookup ⊢
  by_cases hid : id = (s.calls i).id
  · rw [hid, AList.lookup_insert] at hlookup
    obtain rfl := Option.some.inj hlookup
    unfold DaemonClient.goTo
    rw [update_self]
    exact ⟨hid, trivial, hfresh.1, hfresh.2⟩
  · rw [AList.lookup_insert_ne hid] at hlookup
    exact hgone.entries id j hlookup

theorem Inv.stepCall (h : Inv s) {a : ClientAction} (ha : s.stepCall a = some t) : Inv t := by
  unfold DaemonClient.stepCall at ha
  split at ha
  case h_1 i method =>
    split at ha
    case h_1 hpoint =>
      obtain rfl := Option.some.inj ha
      have hok := h.calls i
      have hno := h.not_registered (i := i) (.inl (by rw [hpoint]; exact id))
      have hfresh := hok.fresh (by rw [hpoint]; trivial)
      refine h.update ⟨hok.number, ?_, fun _ => hfresh, hok.once, hok.value, hok.completedBy, ?_⟩ rfl
        fun id hlookup => absurd hlookup (hno id)
      · cases s.connected <;> exact fun hc => hc.elim
      · cases s.connected <;> exact nofun
    case h_2 => cases ha
  case h_2 i =>
    split at ha
    case h_1 hpoint =>
      obtain rfl := Option.some.inj ha
      exact h.number hpoint
    case h_2 => cases ha
  case h_3 i =>
    split at ha
    case h_1 hpoint =>
      split at ha
      · obtain rfl := Option.some.inj ha
        have hcounted := (h.calls i).counted (by rw [hpoint]; trivial)
        exact h.goTo (fun _ => hcounted) (fun _ => by rw [hpoint]; trivial) nofun
          (.inl (h.not_registered (.inl (by rw [hpoint]; exact id))))
      · obtain rfl := Option.some.inj ha
        exact h.register hpoint
    case h_2 => cases ha
  case h_4 i result =>
    split at ha
    case h_1 hpoint =>
      obtain rfl := Option.some.inj ha
      have hcounted := (h.calls i).counted (by rw [hpoint]; trivial)
      cases result with
      | sent | failed | unframed => exact h.goTo (fun _ => hcounted) nofun nofun (.inr trivial)
    case h_2 => cases ha
  case h_5 i =>
    split at ha
    case h_1 hpoint hpromise =>
      obtain rfl := Option.some.inj ha
      have hcounted := (h.calls i).counted (by rw [hpoint]; trivial)
      exact h.goTo (fun _ => hcounted) nofun nofun (.inr trivial)
    case h_2 => cases ha
  case h_6 i =>
    split at ha
    case h_1 hpoint =>
      obtain rfl := Option.some.inj ha
      exact h.erase (by rw [hpoint]; trivial) nofun
    case h_2 hpoint =>
      obtain rfl := Option.some.inj ha
      exact h.erase (by rw [hpoint]; trivial) nofun
    case h_3 => cases ha
  case h_7 i =>
    split at ha
    case h_1 resp hpoint hpromise =>
      obtain rfl := Option.some.inj ha
      have hcounted := (h.calls i).counted (by rw [hpoint]; trivial)
      have hno := h.not_registered (i := i) (.inr (by rw [hpromise]; exact nofun))
      unfold unwrap
      split
      · exact h.goTo (fun _ => hcounted) nofun nofun (.inl hno)
      · exact h.goTo (fun _ => hcounted) nofun (fun v hv => ⟨resp, hpromise, (CallPoint.returned.inj hv).symm⟩) (.inl hno)
    case h_2 what hpoint hpromise =>
      obtain rfl := Option.some.inj ha
      have hcounted := (h.calls i).counted (by rw [hpoint]; trivial)
      exact h.goTo (fun _ => hcounted) nofun nofun (.inl (h.not_registered (.inr (by rw [hpromise]; exact nofun))))
    case h_3 => cases ha
  case h_8 => cases ha

/-! ### The reader -/

theorem registered_iff {i : ℕ} : s.Registered i ↔ ∃ id, s.pending.lookup id = some i := by
  constructor
  · rintro ⟨⟨id, j⟩, he, rfl⟩
    exact ⟨id, AList.mem_lookup_iff.mpr he⟩
  · rintro ⟨id, h⟩
    exact ⟨⟨id, i⟩, AList.mem_lookup_iff.mp h, rfl⟩

theorem Inv.failAllPending (h : Inv s) (reason : String) : Inv (s.failAllPending reason) := by
  have hcall : ∀ i, (s.failAllPending reason).calls i = s.calls i ∨ (∃ id, EntryOk id (s.calls i)) ∧
      (s.failAllPending reason).calls i =
        { s.calls i with promise := .exception reason, fulfilled := 1, completedBy := none } := by
    intro i
    unfold DaemonClient.failAllPending
    dsimp only
    split
    case isTrue hreg =>
      obtain ⟨id, hlookup⟩ := registered_iff.mp hreg
      have hentry := h.entries id i hlookup
      exact .inr ⟨⟨id, hentry⟩, hentry.fulfil _ _⟩
    case isFalse => exact .inl rfl
  have hnum : ∀ i, ((s.failAllPending reason).calls i).number = (s.calls i).number := by
    intro i
    rcases hcall i with e | ⟨-, e⟩ <;> rw [e]
  refine ⟨h.nextId, fun i => ?_, fun i j hij hne => ?_, fun id i hlookup => nomatch hlookup⟩
  · rcases hcall i with e | ⟨⟨id, hentry⟩, e⟩
    · rw [e]
      exact h.calls i
    · rw [e]
      have hok := h.calls i
      exact ⟨hok.number, hok.counted, fun he => absurd he (not_early_of_open hentry.point), le_rfl, nofun, nofun,
        fun v hv => absurd hentry.point (by rw [show (s.calls i).point = .returned v from hv]; exact not_false)⟩
  · rw [hnum i, hnum j] at hij
    rw [hnum i] at hne
    exact h.distinct i j hij hne

/-- A number that is out of range does not look like that of a promise that is registered. -/
def IdInRange (s : DaemonClient) : Option Json → Prop
  | some (.int n) => toInt32 n ∈ s.pending → -2 ^ 31 ≤ n ∧ n < 2 ^ 31
  | _ => True

instance (s : DaemonClient) : (id : Option Json) → Decidable (s.IdInRange id)
  | some (.int n) => inferInstanceAs (Decidable (toInt32 n ∈ s.pending → -2 ^ 31 ≤ n ∧ n < 2 ^ 31))
  | none | some .null | some (.bool _) | some (.str _) | some (.arr _) | some (.obj _) => .isTrue trivial

/-- A reply has no such number. -/
def InRange (s : DaemonClient) : ClientAction → Prop
  | .message msg => s.IdInRange (msg.get? "id")
  | _ => True

instance (s : DaemonClient) (a : ClientAction) : Decidable (s.InRange a) := by
  cases a <;> unfold InRange <;> infer_instance

/-- What a message does: it completes the call whose id it has, if there is one. -/
theorem onMessage_cases (h : Inv s) {msg : Json} (hrange : s.InRange (.message msg)) :
    s.onMessage msg = { s with replies := s.replies ++ [msg] } ∨
    ∃ i, msg.get? "id" = some (.int (s.calls i).id) ∧ s.pending.lookup (s.calls i).id = some i ∧
      s.onMessage msg =
        { ({ s with replies := s.replies ++ [msg] } : DaemonClient).update i
            { s.calls i with promise := .value msg, fulfilled := 1, completedBy := some s.replies.length } with
          pending := s.pending.erase (s.calls i).id } := by
  unfold onMessage
  dsimp only
  split
  case h_1 n hid =>
    split
    case h_1 i hlookup =>
      have hentry := h.entries _ i hlookup
      have hrange : s.IdInRange (msg.get? "id") := hrange
      rw [hid] at hrange
      obtain ⟨hlo, hhi⟩ := hrange (AList.lookup_isSome.mp (by rw [hlookup]; rfl))
      have hn : toInt32 n = n := toInt32_of_range hlo hhi
      have hown : n = (s.calls i).id := hn.symm.trans hentry.id
      refine .inr ⟨i, by rw [hid, hown], by rw [← hentry.id, hlookup], ?_⟩
      rw [hentry.fulfil, hentry.id]
    case h_2 => exact .inl rfl
  case h_2 => exact .inl rfl

theorem Inv.read (h : Inv s) (msg : Json) : Inv { s with replies := s.replies ++ [msg] } :=
  ⟨h.nextId, fun i => (h.calls i).mono le_rfl (List.prefix_append _ _), h.distinct, h.entries⟩

theorem Inv.onMessage (h : Inv s) {msg : Json} (hrange : s.InRange (.message msg)) : Inv (s.onMessage msg) := by
  obtain e | ⟨i, hid, hlookup, e⟩ := onMessage_cases h hrange
  · rw [e]
    exact h.read msg
  · rw [e]
    have hok := (h.read msg).calls i
    have hentry := h.entries _ i hlookup
    have hcounted := hok.counted (counted_of_open hentry.point)
    have hremoved : Inv { s with replies := s.replies ++ [msg], pending := s.pending.erase (s.calls i).id } :=
      (h.read msg).remove fun id j hlookup => (lookup_of_lookup_erase hlookup).2
    refine hremoved.update ⟨hok.number, hok.counted, fun he => absurd he (not_early_of_open hentry.point), le_rfl, ?_, ?_, ?_⟩
      rfl fun id hlookup' => ?_
    · intro msg' hv
      obtain rfl := Promise.value.inj hv
      exact ⟨_, rfl, List.getElem?_concat_length, hid⟩
    · exact fun _ _ => ⟨hcounted, msg, rfl⟩
    · exact fun v hv => absurd hentry.point (by rw [show (s.calls i).point = .returned v from hv]; exact not_false)
    · obtain ⟨hne, hlookup'⟩ := lookup_of_lookup_erase hlookup'
      exact absurd (h.entries id i hlookup').id hne

theorem Inv.stepReader (h : Inv s) {a : ClientAction} (hrange : s.InRange a) (ha : s.stepReader a = some t) : Inv t := by
  unfold DaemonClient.stepReader at ha
  split at ha
  · split at ha
    · obtain rfl := Option.some.inj ha
      exact h.onMessage hrange
    · cases ha
  · split at ha
    · obtain rfl := Option.some.inj ha
      exact ⟨h.nextId, h.calls, h.distinct, h.entries⟩
    · cases ha
  · split at ha
    · obtain rfl := Option.some.inj ha
      have hfailed := h.failAllPending "connection closed by server"
      exact ⟨hfailed.nextId, hfailed.calls, hfailed.distinct, hfailed.entries⟩
    · cases ha
  · split at ha
    · obtain rfl := Option.some.inj ha
      exact ⟨h.nextId, h.calls, h.distinct, h.entries⟩
    · cases ha
  · split at ha
    · obtain rfl := Option.some.inj ha
      exact ⟨h.nextId, h.calls, h.distinct, h.entries⟩
    · cases ha
  · split at ha
    · obtain rfl := Option.some.inj ha
      have hfailed := h.failAllPending "disconnected"
      exact ⟨hfailed.nextId, hfailed.calls, hfailed.distinct, hfailed.entries⟩
    · cases ha
  · cases ha

/-- A step is one of a call, or one of the reader or of `disconnect`. -/
theorem step_cases {a : ClientAction} (ha : s.step a = some t) : s.stepCall a = some t ∨ s.stepReader a = some t := by
  cases a with
  | call | number | register | send | timeout | erase | get => exact .inl ha
  | message | leave | failAll | disconnect | join | failRest => exact .inr ha

theorem Inv.step (h : Inv s) {a : ClientAction} (hrange : s.InRange a) (ha : s.step a = some t) : Inv t := by
  rcases step_cases ha with ha | ha
  · exact h.stepCall ha
  · exact h.stepReader hrange ha

theorem Inv.of_steps {as : List ClientAction} (h : steps DaemonClient.step {} as = some s)
    (hrange : Along DaemonClient.step InRange {} as) : Inv s :=
  along_invariant (fun _ _ _ ha hr hs => hs.step hr ha) h hrange inv_init

/-! ### Calls that fail -/

/-- The time of a call has passed, its request could not be sent, its promise has failed, or it has thrown. -/
def Doomed (c : ClientCall) : Prop :=
  c.point = .timedOut ∨ c.point = .sendFailed ∨ (∃ cause what, c.point = .threw cause what) ∨
    ∃ what, c.promise = .exception what

theorem Doomed.fulfil {c : ClientCall} (h : Doomed c) (p : Promise) (by' : Option ℕ) : Doomed (c.fulfil p by') := by
  unfold ClientCall.fulfil
  split
  case h_1 hunset =>
    rcases h with e | e | ⟨cause, what, e⟩ | ⟨what, e⟩
    · exact .inl e
    · exact .inr (.inl e)
    · exact .inr (.inr (.inl ⟨cause, what, e⟩))
    · cases hunset.symm.trans e
  case h_2 => exact h

/-- At an other point it is the promise that has failed. -/
theorem Doomed.exception {c : ClientCall} (h : Doomed c) (hout : c.point ≠ .timedOut) (hsend : c.point ≠ .sendFailed)
    (hthrew : ∀ cause what, c.point ≠ .threw cause what) : ∃ what, c.promise = .exception what := by
  rcases h with e | e | ⟨cause, what, e⟩ | h
  · exact absurd e hout
  · exact absurd e hsend
  · exact absurd e (hthrew cause what)
  · exact h

theorem Doomed.update {i j : ℕ} {c : ClientCall} (h : Doomed (s.calls i)) (hc : Doomed (s.calls j) → Doomed c) :
    Doomed ((s.update j c).calls i) := by
  by_cases hij : i = j
  · rw [hij, update_self]
    exact hc (hij ▸ h)
  · rw [update_of_ne hij]
    exact h

theorem Doomed.stepCall {i : ℕ} (h : Doomed (s.calls i)) {a : ClientAction} (ha : s.stepCall a = some t) :
    Doomed (t.calls i) := by
  unfold DaemonClient.stepCall at ha
  split at ha
  case h_1 j method =>
    split at ha
    case h_1 hpoint =>
      obtain rfl := Option.some.inj ha
      refine h.update fun hj => .inr (.inr (.inr ?_))
      exact hj.exception (by rw [hpoint]; exact nofun) (by rw [hpoint]; exact nofun) (by rw [hpoint]; exact nofun)
    case h_2 => cases ha
  case h_2 j =>
    split at ha
    case h_1 hpoint =>
      obtain rfl := Option.some.inj ha
      refine h.update fun hj => .inr (.inr (.inr ?_))
      exact hj.exception (by rw [hpoint]; exact nofun) (by rw [hpoint]; exact nofun) (by rw [hpoint]; exact nofun)
    case h_2 => cases ha
  case h_3 j =>
    split at ha
    case h_1 hpoint =>
      split at ha
      · obtain rfl := Option.some.inj ha
        exact h.update fun _ => .inr (.inr (.inl ⟨_, _, rfl⟩))
      · obtain rfl := Option.some.inj ha
        refine h.update fun hj => .inr (.inr (.inr ?_))
        exact hj.exception (by rw [hpoint]; exact nofun) (by rw [hpoint]; exact nofun) (by rw [hpoint]; exact nofun)
    case h_2 => cases ha
  case h_4 j result =>
    split at ha
    case h_1 hpoint =>
      obtain rfl := Option.some.inj ha
      refine h.update fun hj => .inr (.inr (.inr ?_))
      exact hj.exception (by rw [hpoint]; exact nofun) (by rw [hpoint]; exact nofun) (by rw [hpoint]; exact nofun)
    case h_2 => cases ha
  case h_5 j =>
    split at ha
    case h_1 => obtain rfl := Option.some.inj ha; exact h.update fun _ => .inl rfl
    case h_2 => cases ha
  case h_6 j =>
    split at ha
    case h_1 => obtain rfl := Option.some.inj ha; exact h.update fun _ => .inr (.inr (.inl ⟨_, _, rfl⟩))
    case h_2 => obtain rfl := Option.some.inj ha; exact h.update fun _ => .inr (.inr (.inl ⟨_, _, rfl⟩))
    case h_3 => cases ha
  case h_7 j =>
    split at ha
    case h_1 resp hpoint hpromise =>
      obtain rfl := Option.some.inj ha
      refine h.update fun hj => ?_
      obtain ⟨what, e⟩ :=
        hj.exception (by rw [hpoint]; exact nofun) (by rw [hpoint]; exact nofun) (by rw [hpoint]; exact nofun)
      cases hpromise.symm.trans e
    case h_2 => obtain rfl := Option.some.inj ha; exact h.update fun _ => .inr (.inr (.inl ⟨_, _, rfl⟩))
    case h_3 => cases ha
  case h_8 => cases ha

theorem Doomed.failAllPending {i : ℕ} (h : Doomed (s.calls i)) (reason : String) :
    Doomed ((s.failAllPending reason).calls i) := by
  unfold DaemonClient.failAllPending
  dsimp only
  split
  · exact h.fulfil _ _
  · exact h

theorem Doomed.stepReader {i : ℕ} (h : Doomed (s.calls i)) {a : ClientAction} (ha : s.stepReader a = some t) :
    Doomed (t.calls i) := by
  unfold DaemonClient.stepReader at ha
  split at ha
  case h_1 msg =>
    split at ha
    case isTrue =>
      obtain rfl := Option.some.inj ha
      unfold DaemonClient.onMessage
      dsimp only
      split
      · split
        · exact Doomed.update (s := { s with replies := s.replies ++ [msg] }) h fun hj => hj.fulfil _ _
        · exact h
      · exact h
    case isFalse => cases ha
  case h_3 =>
    split at ha
    · obtain rfl := Option.some.inj ha
      exact h.failAllPending _
    · cases ha
  case h_6 =>
    split at ha
    · obtain rfl := Option.some.inj ha
      exact h.failAllPending _
    · cases ha
  case h_2 | h_4 | h_5 =>
    split at ha
    · obtain rfl := Option.some.inj ha
      exact h
    · cases ha
  case h_7 => cases ha

/-- A call that is to fail does not return. -/
theorem Doomed.of_steps {i : ℕ} {as : List ClientAction} (h : steps DaemonClient.step s as = some t)
    (hs : Doomed (s.calls i)) : Doomed (t.calls i) := by
  refine steps_invariant (P := fun s => Doomed (s.calls i)) (fun s a t ha hs => ?_) h hs
  rcases step_cases ha with ha | ha
  · exact hs.stepCall ha
  · exact hs.stepReader ha

theorem Inv.not_returned (hs : Inv s) {i : ℕ} (h : Doomed (s.calls i)) (v : Json) : (s.calls i).point ≠ .returned v := by
  intro hv
  obtain ⟨msg, hmsg, -⟩ := (hs.calls i).returned v hv
  obtain ⟨what, e⟩ := h.exception (by rw [hv]; exact nofun) (by rw [hv]; exact nofun) (by rw [hv]; exact nofun)
  cases hmsg.symm.trans e

/-! ### Runs -/

/-- A call is through without a promise that is registered: it has not failed to make the text of its request. -/
def Through (c : ClientCall) : Prop :=
  (∃ v, c.point = .returned v) ∨ ∃ cause what, c.point = .threw cause what ∧ cause ≠ .unframed

theorem Through.not_open {c : ClientCall} (h : Through c) : ¬Open c.point := by
  rcases h with ⟨v, e⟩ | ⟨cause, what, e, hne⟩
  · rw [e]
    exact not_false
  · rw [e]
    cases cause <;> first | exact not_false | exact absurd rfl hne

/-- As long as there are fewer than 2³¹ calls and no reply has a number out of the range of `int` that looks like that of a
promise that is registered: no two calls have one id; a call that has returned has the result in a reply with its own id; a
reply completes at most one call; no promise is fulfilled twice; a call that is through has no promise that is registered; one
whose time has passed, whose request could not be sent or whose promise has failed never returns; and the next message
changes no call but the one that has its id and a promise that is registered. -/
theorem replies_reach_own_call {as : List ClientAction} (h : steps DaemonClient.step {} as = some s)
    (hrange : Along DaemonClient.step InRange {} as) (hfew : s.nextId ≤ 2 ^ 31) :
    (∀ i j, (s.calls i).number ≠ 0 → (s.calls j).number ≠ 0 → (s.calls i).id = (s.calls j).id → i = j) ∧
    (∀ i v, (s.calls i).point = .returned v →
      ∃ msg ∈ s.replies, msg.get? "id" = some (.int (s.calls i).id) ∧ v = resultOf msg) ∧
    (∀ i j k, (s.calls i).completedBy = some k → (s.calls j).completedBy = some k → i = j) ∧
    (∀ i, (s.calls i).fulfilled ≤ 1) ∧
    (∀ i, Through (s.calls i) → ∀ id, s.pending.lookup id ≠ some i) ∧
    (∀ bs cs t i, as = bs ++ cs → steps DaemonClient.step {} bs = some t → Doomed (t.calls i) →
      ∀ v, (s.calls i).point ≠ .returned v) ∧
    (∀ msg t, s.InRange (.message msg) → s.step (.message msg) = some t → ∀ i, t.calls i ≠ s.calls i →
      msg.get? "id" = some (.int (s.calls i).id) ∧ s.pending.lookup (s.calls i).id = some i) := by
  have hs := Inv.of_steps h hrange
  have hids : ∀ i j, (s.calls i).number ≠ 0 → (s.calls j).number ≠ 0 → (s.calls i).id = (s.calls j).id → i = j := by
    intro i j hi _ hid
    rw [ClientCall.id_eq (lt_of_lt_of_le (hs.calls i).number hfew),
      ClientCall.id_eq (lt_of_lt_of_le (hs.calls j).number hfew)] at hid
    exact hs.distinct i j (Int.ofNat.inj hid) hi
  refine ⟨hids, ?_, ?_, fun i => (hs.calls i).once, fun i hi id => hs.not_registered (.inl hi.not_open) id, ?_, ?_⟩
  · intro i v hv
    obtain ⟨msg, hmsg, rfl⟩ := (hs.calls i).returned v hv
    obtain ⟨k, -, hk, hid⟩ := (hs.calls i).value msg hmsg
    exact ⟨msg, List.mem_of_getElem? hk, hid, rfl⟩
  · intro i j k hi hj
    obtain ⟨hni, msg, hmsg⟩ := (hs.calls i).completedBy k hi
    obtain ⟨hnj, msg', hmsg'⟩ := (hs.calls j).completedBy k hj
    obtain ⟨k₁, hk₁, hget, hid⟩ := (hs.calls i).value msg hmsg
    obtain ⟨k₂, hk₂, hget', hid'⟩ := (hs.calls j).value msg' hmsg'
    obtain rfl := Option.some.inj (hi.symm.trans hk₁)
    obtain rfl := Option.some.inj (hj.symm.trans hk₂)
    obtain rfl := Option.some.inj (hget.symm.trans hget')
    exact hids i j hni hnj (Json.int.inj (Option.some.inj (hid.symm.trans hid')))
  · rintro bs cs t i rfl ht hdoomed v
    obtain ⟨t', ht', hrest⟩ := steps_split h
    obtain rfl := Option.some.inj (ht.symm.trans ht')
    exact hs.not_returned (hdoomed.of_steps hrest) v
  · intro msg t hr ht i hne
    have hread : s.reader = .looping ∧ s.onMessage msg = t := by
      have hstep : (if s.reader = .looping then some (s.onMessage msg) else none) = some t := ht
      split at hstep
      case isTrue hl => exact ⟨hl, Option.some.inj hstep⟩
      case isFalse => cases hstep
    obtain e | ⟨j, hid, hlookup, e⟩ := onMessage_cases hs hr
    · rw [← hread.2, e] at hne
      exact absurd rfl hne
    · by_cases hij : i = j
      · rw [hij]
        exact ⟨hid, hlookup⟩
      · rw [← hread.2, e] at hne
        exact absurd (update_of_ne hij _) hne

/-! ### Two replies -/

/-- A call whose reply is this message. -/
def answered (msg : Json) : List ClientAction :=
  [.call 0 "daemon/status", .number 0, .register 0, .send 0 .sent, .message msg, .get 0]

/-- A call gets the reply with its own id. -/
theorem own_reply : ∃ s, steps DaemonClient.step {} (answered (.obj [("id", .int 1), ("result", .str "running")])) = some s ∧
    ∃ msg ∈ s.replies, msg.get? "id" = some (.int (s.calls 0).id) ∧ .str "running" = resultOf msg := by
  obtain ⟨s, hs⟩ : ∃ s, steps DaemonClient.step {} (answered (.obj [("id", .int 1), ("result", .str "running")])) = some s :=
    ⟨_, rfl⟩
  have hnext : (steps DaemonClient.step {} (answered (.obj [("id", .int 1), ("result", .str "running")]))).map (·.nextId) =
    some 2 := rfl
  have hpoint : (steps DaemonClient.step {} (answered (.obj [("id", .int 1), ("result", .str "running")]))).map
    (fun s => (s.calls 0).point) = some (.returned (.str "running")) := rfl
  rw [hs] at hnext hpoint
  have hfew : s.nextId ≤ 2 ^ 31 := by
    rw [show s.nextId = 2 from Option.some.inj hnext]
    decide
  exact ⟨s, hs, (replies_reach_own_call hs (by decide +kernel) hfew).2.1 0 _ (Option.some.inj hpoint)⟩

/-- A call takes a reply whose number is greater by 2³² for its own. -/
theorem foreign_reply : ∃ s,
    steps DaemonClient.step {} (answered (.obj [("id", .int 4294967297), ("result", .str "running")])) = some s ∧
      s.nextId ≤ 2 ^ 31 ∧ (s.calls 0).point = .returned (.str "running") ∧
        ∀ msg ∈ s.replies, msg.get? "id" ≠ some (.int (s.calls 0).id) := by
  obtain ⟨s, hs⟩ : ∃ s,
    steps DaemonClient.step {} (answered (.obj [("id", .int 4294967297), ("result", .str "running")])) = some s := ⟨_, rfl⟩
  have hseen : (steps DaemonClient.step {} (answered (.obj [("id", .int 4294967297), ("result", .str "running")]))).map
    (fun s => (s.nextId, (s.calls 0).point, (s.calls 0).number, s.replies)) = some (2, .returned (.str "running"), 1,
      [.obj [("id", .int 4294967297), ("result", .str "running")]]) := rfl
  rw [hs] at hseen
  obtain ⟨hnext, hseen⟩ := Prod.mk.inj (Option.some.inj hseen)
  obtain ⟨hpoint, hseen⟩ := Prod.mk.inj hseen
  obtain ⟨hnumber, hreplies⟩ := Prod.mk.inj hseen
  refine ⟨s, hs, by rw [hnext]; decide, hpoint, fun msg hmsg hid => ?_⟩
  rw [hreplies, List.mem_singleton] at hmsg
  have hown : (s.calls 0).id = 1 := by
    unfold ClientCall.id
    rw [hnumber]
    rfl
  rw [hmsg, hown] at hid
  exact absurd (Json.int.inj (Option.some.inj hid)) (by decide)

end DaemonClient

end OwlTap.Gui
