import MarketplaceApi.Kafka.Consumer

/-!
# No message is lost

Below the committed offset every message is done with, whatever fails, however members overlap; and
nothing is in the dead letter topic that could have been handled.
-/
namespace MarketplaceApi.Kafka

open Transition (Run Always always_snoc)
open Txn

/-- What a subscription is for: `Done` is what a handler establishes by a commit and nothing takes back, `Refused`
what makes it reject. `Fresh` is what holds of the values that the database draws, `Admitted` what holds of the
requests that come in, `Good` what they make of the tables. -/
structure Purpose {K S E R Q V : Type} (X : Subscription K S E R Q V) where
  Admitted : Q → Prop
  Fresh : S → Q → Prop
  Good : S → Prop
  Done : S → V → Prop
  Refused : V → Prop
  done : ∀ {value q b s s' r}, X.request value q → Admitted q → Fresh s q → Good s → X.system.isolation.le b s →
    Exec X.system.isolation b (X.system.handler q) s s' (.ok r) → Done s' value
  refused : ∀ {value q b s s' e}, X.request value q → X.rejected e = true → X.system.isolation.le b s →
    Exec X.system.isolation b (X.system.handler q) s s' (.error e) → Refused value
  apart : ∀ {s value}, Refused value → ¬ Done s value
  good : ∀ {q b s s' r}, Admitted q → Fresh s q → Good s → X.system.isolation.le b s →
    Exec X.system.isolation b (X.system.handler q) s s' (.ok r) → Good s'
  kept : ∀ {value q b s s' r}, X.system.isolation.le b s →
    Exec X.system.isolation b (X.system.handler q) s s' (.ok r) → Done s value → Done s' value
  env_good : ∀ {s s'}, X.system.env s s' → Good s → Good s'
  env_kept : ∀ {value s s'}, X.system.env s s' → Done s value → Done s' value

section
variable {K S E R Q V : Type} {X : Subscription K S E R Q V} {P : Purpose X} {w w' : World K S E R Q} {ev : Event Q}
  {position : Position} {letter : DeadLetter} {s : S} {tr : List (World K S E R Q × Event Q)}

/-- The commits draw fresh values, the messages that arrive are admitted, and so is what others begin. -/
structure Purpose.Meets (P : Purpose X) (w : World K S E R Q) (e : Event Q) : Prop where
  fresh : ∀ i t, e = .tx (.commit i) → w.db.txs i = some t → P.Fresh w.db.db t.request
  message : ∀ partition message value q, e = .append partition message → X.read message = .event value →
    X.request value q → P.Admitted q
  other : ∀ i q, e = .tx (.begin i q) → w.members i = none → P.Admitted q

theorem Purpose.meets_append {partition : Nat} {message : Message}
    (h : ∀ value q, X.read message = .event value → X.request value q → P.Admitted q) :
    P.Meets w (.append partition message) where
  fresh i t he := by cases he
  message partition' message' value q he := by
    cases he
    exact h value q
  other i q he := by cases he

/-- A message that no handler takes. -/
def Purpose.Refuses (P : Purpose X) (message : Message) : Prop :=
  X.read message = .rejected ∨ ∃ value, X.read message = .event value ∧ P.Refused value

/-- A message is done with: its handler committed what it had to, or it is in the dead letter topic. -/
def Purpose.Settled (P : Purpose X) (w : World K S E R Q) (position : Position) : Prop :=
  ∃ message, w.message? position = some message ∧ (X.read message = .skipped ∨
    (∃ value, X.read message = .event value ∧ P.Done w.db.db value) ∨ ⟨message, position⟩ ∈ w.deadLetters)

/-- A dead letter is the message at its position, and no handler takes it. -/
def Purpose.Justified (P : Purpose X) (w : World K S E R Q) (letter : DeadLetter) : Prop :=
  w.message? letter.source = some letter.message ∧ P.Refuses letter.message

/-- What no message below its committed offset escapes, and every dead letter deserves. -/
structure Delivered (P : Purpose X) (w : World K S E R Q) : Prop where
  handled : ∀ position, position.offset < w.committed position.partition → ∃ message,
    w.message? position = some message ∧
    (∀ value, X.read message = .event value → ¬ P.Refused value → P.Done w.db.db value) ∧
    (P.Refuses message → ⟨message, position⟩ ∈ w.deadLetters)
  deadLetters : ∀ letter ∈ w.deadLetters, P.Justified w letter

/-- The database and the log: coherent transactions, good tables, admitted requests. -/
structure Sound (P : Purpose X) (w : World K S E R Q) : Prop where
  coherent : Coherent X.system w.db
  good : P.Good w.db.db
  admitted : ∀ i t, w.db.txs i = some t → P.Admitted t.request
  messages : ∀ partition, ∀ message ∈ w.log partition, ∀ value q, X.read message = .event value →
    X.request value q → P.Admitted q

/-- The message before a position of its partition is done with, and so are those before it. -/
def Purpose.SettledBelow (P : Purpose X) (w : World K S E R Q) (position : Position) : Prop :=
  ∀ o < position.offset, P.Settled w ⟨position.partition, o⟩

/-- Where the members are, and what they are on. -/
structure Invariant (P : Purpose X) (w : World K S E R Q) : Prop where
  settled : ∀ partition, P.SettledBelow w ⟨partition, w.committed partition⟩
  members : ∀ i member, w.members i = some member → P.SettledBelow w member.position
  handling : ∀ i position t, w.members i = some (.handling position) → w.db.txs i = some t →
    ∃ message value, w.message? position = some message ∧ X.read message = .event value ∧ X.request value t.request
  justified : ∀ letter ∈ w.sends ++ w.deadLetters, P.Justified w letter

theorem Purpose.Refuses.event {message : Message} {value : V} (h : P.Refuses message)
    (hread : X.read message = .event value) : P.Refused value := by
  rcases h with hrejected | ⟨value', hread', hrefused⟩
  · rw [hread] at hrejected
    cases hrejected
  · rw [hread] at hread'
    cases hread'
    exact hrefused

theorem Purpose.Refuses.not_skipped {message : Message} (h : P.Refuses message) : X.read message ≠ .skipped := by
  intro hskipped
  rcases h with hrejected | ⟨value, hread, _⟩
  · rw [hskipped] at hrejected
    cases hrejected
  · rw [hskipped] at hread
    cases hread

theorem sound_start (h : P.Good s) : Sound P (World.start s) where
  coherent := coherent_start s
  good := h
  admitted i t hi := by simp [World.start, Config.start] at hi
  messages partition message hmessage := absurd hmessage List.not_mem_nil

theorem invariant_start : Invariant P (World.start s) where
  settled partition o ho := absurd ho (Nat.not_lt_zero o)
  members i member hi := by simp [World.start] at hi
  handling i position t hi := by simp [World.start] at hi
  justified letter hletter := by simp [World.start] at hletter

/-- What a step of the database does to a message that is done with. -/
theorem done_step {c c' : Config K S E R Q} {e : Txn.Event Q} (hc : Coherent X.system c)
    (hs : Txn.Step X.system c e c') {value : V} (h : P.Done c.db value) : P.Done c'.db value := by
  rcases hs.serial hc with ⟨hdb, _, _⟩ | ⟨_, _, _, _, _, _, _, hle, he, _⟩ | ⟨_, _, _, _, _, _, _, _, _, _, hdb, _⟩ |
    ⟨_, henv, _⟩
  · rwa [hdb]
  · exact P.kept hle he h
  · rwa [hdb]
  · exact P.env_kept henv h

theorem good_step (h : Sound P w) {c : Config K S E R Q} {e : Txn.Event Q} (hm : P.Meets w (.tx e))
    (hs : Txn.Step X.system w.db e c) : P.Good c.db := by
  rcases hs.serial h.coherent with ⟨hdb, _, _⟩ | ⟨i, t, _, _, rfl, hi, _, hle, he, _⟩ |
    ⟨_, _, _, _, _, _, _, _, _, _, hdb, _⟩ | ⟨_, henv, _⟩
  · rw [hdb]
    exact h.good
  · exact P.good (h.admitted i t hi) (hm.fresh i t rfl hi) h.good hle he
  · rw [hdb]
    exact h.good
  · exact P.env_good henv h.good

theorem append_log (w : World K S E R Q) (partition : Nat) (message : Message) (other : Nat) :
    (w.append partition message).log other =
      if other = partition then w.log other ++ [message] else w.log other := by
  unfold World.append
  by_cases heq : other = partition
  · subst heq
    rw [if_pos rfl]
    exact Function.update_self ..
  · rw [if_neg heq]
    exact Function.update_of_ne heq ..

/-- What every step adds to: the log, the dead letters, what is done. -/
structure Grows (P : Purpose X) (w w' : World K S E R Q) : Prop where
  log : ∀ partition, w.log partition <+: w'.log partition
  done : ∀ value, P.Done w.db.db value → P.Done w'.db.db value
  deadLetters : w.deadLetters ⊆ w'.deadLetters

theorem message?_mono (h : ∀ partition, w.log partition <+: w'.log partition) {message : Message}
    (hmessage : w.message? position = some message) : w'.message? position = some message := by
  obtain ⟨rest, hrest⟩ := h position.partition
  have hlt : position.offset < (w.log position.partition).length := (List.getElem?_eq_some_iff.mp hmessage).1
  unfold World.message?
  rw [← hrest, List.getElem?_append_left hlt]
  exact hmessage

/-- Nothing of a settled message is taken back. -/
theorem Purpose.Settled.mono (h : P.Settled w position) (hg : Grows P w w') : P.Settled w' position := by
  obtain ⟨message, hmessage, hsettled⟩ := h
  refine ⟨message, message?_mono hg.log hmessage, ?_⟩
  rcases hsettled with hskipped | ⟨value, hvalue, hdone⟩ | hletter
  · exact Or.inl hskipped
  · exact Or.inr (Or.inl ⟨value, hvalue, hg.done value hdone⟩)
  · exact Or.inr (Or.inr (hg.deadLetters hletter))

theorem Purpose.SettledBelow.mono (h : P.SettledBelow w position) (hg : Grows P w w') : P.SettledBelow w' position :=
  fun o ho => (h o ho).mono hg

/-- One more message is done with. -/
theorem Purpose.SettledBelow.next (h : P.SettledBelow w position) (hnew : P.Settled w position) :
    P.SettledBelow w position.next := by
  intro o ho
  rcases Nat.lt_succ_iff_lt_or_eq.mp ho with hlt | rfl
  · exact h o hlt
  · exact hnew

theorem Purpose.Justified.mono (h : P.Justified w letter) (hg : Grows P w w') : P.Justified w' letter :=
  ⟨message?_mono hg.log h.1, h.2⟩

theorem Grows.of_same (hlog : ∀ partition, w.log partition <+: w'.log partition) (hdb : w'.db = w.db)
    (hdead : w.deadLetters ⊆ w'.deadLetters) :
    Grows P w w' where
  log := hlog
  done value hdone := by rwa [hdb]
  deadLetters := hdead

/-- The database moves by a step of its own, or it stays. -/
theorem Step.database (hs : Step X w ev w') :
    (w'.db = w.db ∧ ∀ e, ev ≠ .tx e) ∨ ∃ e, ev = .tx e ∧ Txn.Step X.system w.db e w'.db ∧ w'.log = w.log ∧
      w'.deadLetters = w.deadLetters := by
  cases hs with
  | handle _ _ _ _ hstep => exact Or.inr ⟨_, rfl, hstep, rfl, rfl⟩
  | statement hstep => exact Or.inr ⟨_, rfl, hstep, rfl, rfl⟩
  | handled _ hstep => exact Or.inr ⟨_, rfl, hstep, rfl, rfl⟩
  | unanswered _ hstep => exact Or.inr ⟨_, rfl, hstep, rfl, rfl⟩
  | rejected _ _ hstep _ _ => exact Or.inr ⟨_, rfl, hstep, rfl, rfl⟩
  | failed _ hstep _ _ => exact Or.inr ⟨_, rfl, hstep, rfl, rfl⟩
  | aborted _ hstep => exact Or.inr ⟨_, rfl, hstep, rfl, rfl⟩
  | env hstep => exact Or.inr ⟨_, rfl, hstep, rfl, rfl⟩
  | other _ _ hstep => exact Or.inr ⟨_, rfl, hstep, rfl, rfl⟩
  | _ => exact Or.inl ⟨rfl, by simp⟩

theorem Step.later (hc : Coherent X.system w.db) (hs : Step X w ev w') : X.system.isolation.le w.db.db w'.db.db := by
  rcases hs.database with ⟨hdb, _⟩ | ⟨_, _, hstep, _, _⟩
  · rw [hdb]
    exact X.system.isolation.le_refl _
  · exact hstep.later hc

theorem Step.grows (hc : Coherent X.system w.db) (hs : Step X w ev w') : Grows P w w' := by
  rcases hs.database with ⟨hsame, hno⟩ | ⟨e, _, hstep, hlog, hdead⟩
  · cases hs with
    | append =>
      refine .of_same (fun partition => ?_) rfl (List.Subset.refl _)
      rw [append_log]
      split
      · exact List.prefix_append _ _
      · exact List.prefix_refl _
    | land _ => exact .of_same (fun _ => List.prefix_refl _) rfl (List.subset_cons_self _ _)
    | assign _ _ | drop _ | skip _ _ _ | malformed _ _ _ | acknowledge _ _ _ | fail _ | commit _ =>
      exact .of_same (fun _ => List.prefix_refl _) rfl (List.Subset.refl _)
    | _ => exact absurd rfl (hno _)
  · refine ⟨fun partition => ⟨[], ?_⟩, fun value hdone => done_step hc hstep hdone, fun letter hletter => ?_⟩
    · rw [hlog, List.append_nil]
    · rwa [hdead]

/-- A request is for a message of the log, or no member's. -/
theorem Step.begins {i : Nat} {q : Q} (hs : Step X w (.tx (.begin i q)) w') :
    (∃ partition, ∃ message ∈ w.log partition, ∃ value, X.read message = .event value ∧ X.request value q) ∨
      w.members i = none := by
  cases hs with
  | handle _ hmessage hvalue hq _ => exact Or.inl ⟨_, _, List.mem_of_getElem? hmessage, _, hvalue, hq⟩
  | other hi hown _ =>
    rcases hown with ⟨_, he⟩ | he | he | he
    · rw [(Txn.Event.begin.inj he).1]
      exact Or.inr hi
    · cases he
    · cases he
    · cases he

theorem sound_step (h : Sound P w) (hm : P.Meets w ev) (hs : Step X w ev w') : Sound P w' := by
  rcases hs.database with ⟨hdb, hno⟩ | ⟨e, rfl, hstep, hlog, _⟩
  · refine ⟨by rw [hdb]; exact h.coherent, by rw [hdb]; exact h.good, by rw [hdb]; exact h.admitted, ?_⟩
    cases hs with
    | @append partition message =>
      intro other found hfound value q hvalue hq
      rw [append_log] at hfound
      split at hfound
      · rcases List.mem_append.mp hfound with hold | hnew
        · exact h.messages other found hold value q hvalue hq
        · rw [List.mem_singleton] at hnew
          subst hnew
          exact hm.message partition found value q rfl hvalue hq
      · exact h.messages other found hfound value q hvalue hq
    | handle | statement | handled | unanswered | rejected | failed | aborted | env | other => exact absurd rfl (hno _)
    | _ => exact h.messages
  · refine ⟨coherent_step h.coherent hstep, good_step h hm hstep, fun i t hi => ?_, by rw [hlog]; exact h.messages⟩
    rcases hstep.txs_inv hi with rfl | ⟨u, hu, hsame⟩
    · rcases hs.begins with ⟨partition, message, hmessage, value, hvalue, hq⟩ | hnone
      · exact h.messages partition message hmessage value t.request hvalue hq
      · exact hm.other i t.request rfl hnone
    · rw [← hsame]
      exact h.admitted i u hu

theorem put_self (i : Nat) (member : Option Member) : (w.put i member).members i = member := Function.update_self ..

theorem put_other {i j : Nat} (hj : j ≠ i) (member : Option Member) : (w.put i member).members j = w.members j :=
  Function.update_of_ne hj ..

/-- A step moves one member, to where every message below is done with. -/
structure Moves (P : Purpose X) (i : Nat) (w w' : World K S E R Q) : Prop where
  others : ∀ j, j ≠ i → w'.members j = w.members j
  position : ∀ m, w'.members i = some m → P.SettledBelow w' m.position
  handling : ∀ position t, w'.members i = some (.handling position) → w'.db.txs i = some t →
    ∃ message value, w.message? position = some message ∧ X.read message = .event value ∧ X.request value t.request

theorem Invariant.step (h : Invariant P w) (hg : Grows P w w') (hcommitted : w'.committed = w.committed) {i : Nat}
    (hmoves : Moves P i w w')
    (hothers : ∀ j t, j ≠ i → w'.db.txs j = some t → ∃ u, w.db.txs j = some u ∧ u.request = t.request)
    (hletters : ∀ letter ∈ w'.sends ++ w'.deadLetters, letter ∈ w.sends ++ w.deadLetters ∨ P.Justified w' letter) :
    Invariant P w' where
  settled partition := by
    rw [hcommitted]
    exact (h.settled partition).mono hg
  members j m hj := by
    by_cases he : j = i
    · subst he
      exact hmoves.position m hj
    · rw [hmoves.others j he] at hj
      exact (h.members j m hj).mono hg
  handling j o t hj ht := by
    have hfound : ∃ message value, w.message? o = some message ∧ X.read message = .event value ∧
        X.request value t.request := by
      by_cases he : j = i
      · subst he
        exact hmoves.handling o t hj ht
      · rw [hmoves.others j he] at hj
        obtain ⟨u, hu, hrequest⟩ := hothers j t he ht
        rw [← hrequest]
        exact h.handling j o u hj hu
    obtain ⟨message, value, hmessage, hvalue, hrequest⟩ := hfound
    exact ⟨message, value, message?_mono hg.log hmessage, hvalue, hrequest⟩
  justified letter hletter := by
    rcases hletters letter hletter with hold | hnew
    · exact (h.justified letter hold).mono hg
    · exact hnew

/-- A step that leaves the members where they are. -/
theorem Moves.same (h : Invariant P w) (hg : Grows P w w') {i : Nat} (hmembers : w'.members = w.members)
    (hrequest : ∀ t, w'.db.txs i = some t → w.members i = none ∨ ∃ u, w.db.txs i = some u ∧ u.request = t.request) :
    Moves P i w w' where
  others j _ := by rw [hmembers]
  position m hi := by
    rw [hmembers] at hi
    exact (h.members i m hi).mono hg
  handling o t hi ht := by
    rw [hmembers] at hi
    rcases hrequest t ht with hnone | ⟨u, hu, hsame⟩
    · rw [hnone] at hi
      cases hi
    · rw [← hsame]
      exact h.handling i o u hi hu

/-- A step that puts a member in a place where it handles nothing. -/
theorem Moves.put (i : Nat) {member : Option Member} (hmembers : w'.members = (w.put i member).members)
    (hidle : ∀ o, member ≠ some (.handling o)) (hposition : ∀ m, member = some m → P.SettledBelow w' m.position) :
    Moves P i w w' where
  others j hj := by rw [hmembers, put_other hj]
  position m hi := by
    rw [hmembers, put_self] at hi
    exact hposition m hi
  handling o t hi := by
    rw [hmembers, put_self] at hi
    exact absurd hi (hidle o)

/-- A member that stays at its message. -/
theorem Moves.stay (h : Invariant P w) (hg : Grows P w w') {i : Nat} {member member' : Member}
    (hi : w.members i = some member) (hmembers : w'.members = (w.put i (some member')).members)
    (hidle : ∀ o, member' ≠ .handling o) (hposition : member'.position = member.position) : Moves P i w w' := by
  refine .put i hmembers (fun o he => hidle o (Option.some.inj he)) ?_
  intro m hm
  obtain rfl : member' = m := Option.some.inj hm
  rw [hposition]
  exact (h.members i member hi).mono hg

/-- A member that is done with its message. -/
theorem Moves.advance (h : Invariant P w) (hg : Grows P w w') {i : Nat} {member : Member}
    (hi : w.members i = some member) (hmembers : w'.members = (w.put i (some (.ready member.position.next))).members)
    (hnew : P.Settled w' member.position) : Moves P i w w' := by
  refine .put i hmembers (fun o => by simp) ?_
  intro m hm
  obtain rfl : Member.ready member.position.next = m := Option.some.inj hm
  exact ((h.members i member hi).mono hg).next hnew

theorem request_of_txs {c : Config K S E R Q} {e : Txn.Event Q} {j : Nat} {t : Tx K S E R Q}
    (hs : Txn.Step X.system w.db e c) (hne : ∀ q, e ≠ .begin j q) (ht : c.txs j = some t) :
    ∃ u, w.db.txs j = some u ∧ u.request = t.request := by
  rcases hs.txs_inv ht with rfl | hold
  · exact absurd rfl (hne t.request)
  · exact hold

/-- The commit of a handler. -/
theorem done_handled (hsound : Sound P w) (h : Invariant P w) {i : Nat} (hm : P.Meets w (.tx (.commit i)))
    (hi : w.members i = some (.handling position)) {c : Config K S E R Q} (hs : Txn.Step X.system w.db (.commit i) c) :
    ∃ message value, w.message? position = some message ∧ X.read message = .event value ∧ P.Done c.db value := by
  cases hs with
  | @commit _ t r ht hr =>
    obtain ⟨b, _, hle, hp⟩ := hsound.coherent.progress i t ht
    rw [hr] at hp
    obtain ⟨message, value, hmessage, hvalue, hrequest⟩ := h.handling i position t hi ht
    have hadmitted := hsound.admitted i t ht
    exact ⟨message, value, hmessage, hvalue,
      P.done hrequest hadmitted (hm.fresh i t rfl ht) hsound.good hle hp.exec⟩

/-- The rollback of a handler that rejects. -/
theorem refused_rejected (hsound : Sound P w) (h : Invariant P w) {i : Nat}
    (hi : w.members i = some (.handling position)) {c : Config K S E R Q} {q : Q} {e : E}
    (hs : Txn.Step X.system w.db (.rollback i) c) (ha : c.answers = (q, .error e) :: w.db.answers)
    (he : X.rejected e = true) :
    ∃ message value, w.message? position = some message ∧ X.read message = .event value ∧ P.Refused value := by
  cases hs with
  | @rollback _ t e' ht hr =>
    obtain ⟨b, _, hle, hp⟩ := hsound.coherent.progress i t ht
    rw [hr] at hp
    obtain rfl : e' = e := Except.error.inj (congrArg Prod.snd (List.cons.inj ha).1)
    obtain ⟨message, value, hmessage, hvalue, hrequest⟩ := h.handling i position t hi ht
    exact ⟨message, value, hmessage, hvalue, P.refused hrequest he hle hp.exec_error⟩

theorem invariant_step (hsound : Sound P w) (h : Invariant P w) (hm : P.Meets w ev) (hs : Step X w ev w') :
    Invariant P w' := by
  have hg : Grows P w w' := hs.grows hsound.coherent
  cases hs with
  | append =>
    refine h.step hg rfl (i := 0) (.same h hg rfl fun t ht => Or.inr ⟨t, ht, rfl⟩)
      (fun j t _ ht => ⟨t, ht, rfl⟩) fun _ => Or.inl
  | @assign i partition hi _ =>
    refine h.step hg rfl (.put i rfl (fun o => by simp) ?_) (fun j t _ ht => ⟨t, ht, rfl⟩) fun _ => Or.inl
    rintro m ⟨⟩
    exact (h.settled _).mono hg
  | @drop i _ =>
    exact h.step hg rfl (.put i rfl (fun o => by simp) fun m hm => by cases hm)
      (fun j t _ ht => ⟨t, ht, rfl⟩) fun _ => Or.inl
  | @handle i position message value q db hi hmessage hvalue hq hstep =>
    refine h.step hg rfl (i := i) ⟨fun j hj => put_other hj _, ?_, ?_⟩ ?_ fun _ => Or.inl
    · intro m hmember
      rw [show ({ w.put i (some (.handling position)) with db := db } : World K S E R Q).members i =
        some (.handling position) from put_self ..] at hmember
      cases hmember
      exact (h.members i _ hi).mono hg
    · intro o t hmember ht
      rw [show ({ w.put i (some (.handling position)) with db := db } : World K S E R Q).members i =
        some (.handling position) from put_self ..] at hmember
      cases hmember
      cases hstep with
      | begin _ _ =>
        change (Config.set _ _ _).txs i = some t at ht
        rw [Config.set_self] at ht
        cases ht
        exact ⟨message, value, hmessage, hvalue, hq⟩
    · intro j t hj ht
      exact request_of_txs hstep (fun q' he => hj (Txn.Event.begin.inj he).1.symm) ht
  | @statement i db hstep =>
    have hrequest : ∀ j t, db.txs j = some t → ∃ u, w.db.txs j = some u ∧ u.request = t.request :=
      fun j t ht => request_of_txs hstep (fun q he => by cases he) ht
    exact h.step hg rfl (i := i) (.same h hg rfl fun t ht => Or.inr (hrequest i t ht))
      (fun j t _ ht => hrequest j t ht) fun _ => Or.inl
  | @handled i position db hi hstep =>
    obtain ⟨message, value, hmessage, hvalue, hdone⟩ := done_handled hsound h hm hi hstep
    exact h.step hg rfl (.advance h hg hi rfl ⟨message, hmessage, Or.inr (Or.inl ⟨value, hvalue, hdone⟩)⟩)
      (fun j t _ ht => request_of_txs hstep (fun q he => by cases he) ht) fun _ => Or.inl
  | @rejected i position message db q e hi hmessage hstep ha he =>
    refine h.step hg rfl (.stay h hg hi rfl (fun o => by simp) rfl)
      (fun j t _ ht => request_of_txs hstep (fun q he => by cases he) ht) fun letter hletter => ?_
    rcases List.mem_cons.mp hletter with rfl | hold
    · obtain ⟨message', value, hmessage', hvalue, hrefused⟩ := refused_rejected hsound h hi hstep ha he
      obtain rfl : message = message' := Option.some.inj (hmessage.symm.trans hmessage')
      exact Or.inr ⟨hmessage, Or.inr ⟨value, hvalue, hrefused⟩⟩
    · exact Or.inl hold
  | @unanswered i position db hi hstep | @aborted i position db hi hstep =>
    exact h.step hg rfl (.stay h hg hi rfl (fun o => by simp) rfl)
      (fun j t _ ht => request_of_txs hstep (fun q he => by cases he) ht) fun _ => Or.inl
  | @failed i position db q e hi hstep _ _ =>
    exact h.step hg rfl (.stay h hg hi rfl (fun o => by simp) rfl)
      (fun j t _ ht => request_of_txs hstep (fun q he => by cases he) ht) fun _ => Or.inl
  | @env db hstep =>
    have hrequest : ∀ j t, db.txs j = some t → ∃ u, w.db.txs j = some u ∧ u.request = t.request :=
      fun j t ht => request_of_txs hstep (fun q he => by cases he) ht
    exact h.step hg rfl (i := 0) (.same h hg rfl fun t ht => Or.inr (hrequest 0 t ht))
      (fun j t _ ht => hrequest j t ht) fun _ => Or.inl
  | @other i e db hi hown hstep =>
    refine h.step hg rfl (i := i) (.same h hg rfl fun t _ => Or.inl hi)
      (fun j t hj ht => request_of_txs hstep (fun q he => ?_) ht) fun _ => Or.inl
    subst he
    rcases hown with ⟨q', he⟩ | he | he | he
    · exact hj (Txn.Event.begin.inj he).1
    · cases he
    · cases he
    · cases he
  | @skip i position message hi hmessage hskipped =>
    exact h.step hg rfl (.advance h hg hi rfl ⟨message, hmessage, Or.inl hskipped⟩)
      (fun j t _ ht => ⟨t, ht, rfl⟩) fun _ => Or.inl
  | @malformed i position message hi hmessage hrejected =>
    refine h.step hg rfl (.stay h hg hi rfl (fun o => by simp) rfl) (fun j t _ ht => ⟨t, ht, rfl⟩)
      fun letter hletter => ?_
    rcases List.mem_cons.mp hletter with rfl | hold
    · exact Or.inr ⟨hmessage, Or.inl hrejected⟩
    · exact Or.inl hold
  | @land letter hletter =>
    refine h.step hg rfl (i := 0) (.same h hg rfl fun t ht => Or.inr ⟨t, ht, rfl⟩)
      (fun j t _ ht => ⟨t, ht, rfl⟩) fun other hother => Or.inl ?_
    rcases List.mem_append.mp hother with hsend | hdead
    · exact List.mem_append_left _ hsend
    · rcases List.mem_cons.mp hdead with rfl | hold
      · exact List.mem_append_left _ hletter
      · exact List.mem_append_right _ hold
  | @acknowledge i position message hi hmessage hletter =>
    exact h.step hg rfl (.advance h hg hi rfl ⟨message, hmessage, Or.inr (Or.inr hletter)⟩)
      (fun j t _ ht => ⟨t, ht, rfl⟩) fun _ => Or.inl
  | @fail i position hi =>
    exact h.step hg rfl (.stay h hg hi rfl (fun o => by simp) rfl) (fun j t _ ht => ⟨t, ht, rfl⟩) fun _ => Or.inl
  | @commit i member hi =>
    refine ⟨fun partition => ?_, h.members, h.handling, h.justified⟩
    change P.SettledBelow w ⟨partition, Function.update w.committed _ _ partition⟩
    by_cases heq : partition = member.position.partition
    · subst heq
      rw [Function.update_self]
      exact h.members i member hi
    · rw [Function.update_of_ne heq]
      exact h.settled partition

theorem invariant_run (hgood : P.Good s) (hr : Run (Step X) (World.start s) tr w) (hm : Always P.Meets tr) :
    Sound P w ∧ Invariant P w := by
  induction hr with
  | nil => exact ⟨sound_start hgood, invariant_start⟩
  | snoc _ hstep ih =>
    obtain ⟨hbefore, hmeets⟩ := always_snoc.mp hm
    obtain ⟨hsound, hinv⟩ := ih hbefore
    exact ⟨sound_step hsound hmeets hstep, invariant_step hsound hinv hmeets hstep⟩

/-- In every run, nothing below the committed offset is lost and no dead letter could have been handled. -/
theorem delivered_run (hgood : P.Good s) (hr : Run (Step X) (World.start s) tr w) (hm : Always P.Meets tr) :
    Delivered P w := by
  have h := (invariant_run hgood hr hm).2
  refine ⟨fun position hlt => ?_, fun letter hletter => h.justified letter (List.mem_append_right _ hletter)⟩
  obtain ⟨message, hmessage, hsettled⟩ := h.settled position.partition position.offset hlt
  refine ⟨message, hmessage, fun value hvalue hnot => ?_, fun hrefuses => ?_⟩
  · rcases hsettled with hskipped | ⟨value', hvalue', hdone⟩ | hletter
    · rw [hvalue] at hskipped
      cases hskipped
    · rw [hvalue] at hvalue'
      cases hvalue'
      exact hdone
    · have hjustified := h.justified _ (List.mem_append_right _ hletter)
      exact absurd (hjustified.2.event hvalue) hnot
  · rcases hsettled with hskipped | ⟨value, hvalue, hdone⟩ | hletter
    · exact absurd hskipped hrefuses.not_skipped
    · exact absurd hdone (P.apart (hrefuses.event hvalue))
    · exact hletter

theorem Delivered.done (h : Delivered P w) {message : Message} {value : V}
    (ho : position.offset < w.committed position.partition) (hmessage : w.message? position = some message)
    (hread : X.read message = .event value) (hnot : ¬ P.Refused value) :
    P.Done w.db.db value := by
  obtain ⟨found, hfound, hdone, _⟩ := h.handled position ho
  obtain rfl : found = message := Option.some.inj (hfound.symm.trans hmessage)
  exact hdone value hread hnot

theorem Delivered.refused (h : Delivered P w) (hletter : letter ∈ w.deadLetters) {value : V}
    (hread : X.read letter.message = .event value) : P.Refused value :=
  (h.deadLetters letter hletter).2.event hread

end

end MarketplaceApi.Kafka
