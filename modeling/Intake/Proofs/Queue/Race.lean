import Intake.Proofs.Queue.Traffic
/-!
# A read that gives up on its producer

A read looks for its bytes, and where too few are there it asks in a
second step whether the producer still lives. The queue is locked for the
look and not for the question, so that the producer may write between the
two and end (`Segment.retry`). A read that gives up does so over an ended
producer, but not always over missing bytes: what counted was the look,
and what was written after it may have been enough
(`Segment.readThrough_peerGone`, `Segment.retry_overtaken`). Nothing is
lost by that. The bytes are on the queue, and another read takes them.
-/

namespace Intake
namespace Segment

/-! ## The producer in between -/

/-- What the writing process may do while the reader does not look. -/
inductive Deed where
  | write (side : Side) (token : Token) (parts : List Bytes)
  /-- The process ends. -/
  | exit

/-- The queue after a deed. A process that has ended writes nothing. -/
def suffer (q : Segment) : Deed → Segment
  | .write side token parts => if q.producerLives then (q.write side token parts).2 else q
  | .exit => { q with producerLives := false }

/-- The queue after some deeds. -/
def sufferAll (q : Segment) (deeds : List Deed) : Segment := deeds.foldl suffer q

/-- One retry of a read, in which the producer does something between the
look and the question. -/
def retry (q : Segment) (side : Side) (token : Token) (n : Nat) (amid : List Deed) :
    Except QueueError (Option Bytes) × Segment :=
  match q.look side token n with
  | (.ok none, q) =>
    match (q.sufferAll amid).probe with
    | .ok () => (.ok none, q.sufferAll amid)
    | .error e => (.error e, q.sufferAll amid)
  | result => result

/-- One retry and what surrounds it: the reader's token at the look, and
what the producer does between the look and the question and after it. -/
structure Try where
  token : Token := {}
  amid : List Deed := []
  later : List Deed := []

/-- A read, retry after retry, up to the first that finds its bytes or
fails. -/
def readThrough (q : Segment) (side : Side) (n : Nat) :
    List Try → Except QueueError (Option Bytes) × Segment
  | [] => (.ok none, q)
  | t :: ts =>
    match q.retry side t.token n t.amid with
    | (.ok none, q) => (q.sufferAll t.later).readThrough side n ts
    | result => result

/-! ## What deeds do to a queue -/

/-- A queue that its producer has written to, if anything. -/
structure Grown (q : Segment) (more : Bytes) (q' : Segment) : Prop where
  round : q'.Round
  capacity_eq : q'.capacity = q.capacity
  producer_eq : q'.producer = q.producer
  contents_eq : q'.contents = q.contents ++ more
  /-- A producer that has ended stays so, and has written nothing. -/
  ended : q.producerLives = false → q'.producerLives = false ∧ more = []

variable {q q' q'' : Segment} {side : Side} {token : Token} {n : Nat}

theorem Grown.refl (h : q.Round) : Grown q [] q :=
  ⟨h, rfl, rfl, (List.append_nil _).symm, fun hended => ⟨hended, rfl⟩⟩

theorem Grown.trans {xs ys : Bytes} (h : Grown q xs q') (h' : Grown q' ys q'') :
    Grown q (xs ++ ys) q'' where
  round := h'.round
  capacity_eq := h'.capacity_eq.trans h.capacity_eq
  producer_eq := h'.producer_eq.trans h.producer_eq
  contents_eq := by rw [h'.contents_eq, h.contents_eq, List.append_assoc]
  ended := fun hended => by
    obtain ⟨hended', rfl⟩ := h.ended hended
    obtain ⟨hended'', rfl⟩ := h'.ended hended'
    exact ⟨hended'', rfl⟩

theorem grown_suffer (h : q.Round) (deed : Deed) : ∃ more, Grown q more (q.suffer deed) := by
  cases deed with
  | exit =>
    exact ⟨[], ⟨h.two_le, h.head_lt, h.tail_lt, h.size_le⟩, rfl, rfl, (List.append_nil _).symm,
      fun _ => ⟨rfl, rfl⟩⟩
  | write side token parts =>
    have hsuffer : q.suffer (.write side token parts)
        = if q.producerLives then (q.write side token parts).2 else q := rfl
    rw [hsuffer]
    cases hlives : q.producerLives with
    | false => exact ⟨[], .refl h⟩
    | true =>
      rw [if_pos rfl]
      by_cases hok : (q.write side token parts).1 = .ok true
      · rcases hwrite : q.write side token parts with ⟨outcome, q₁⟩
        rw [hwrite] at hok
        cases hok
        obtain ⟨hroom, rfl⟩ := write_ok hwrite
        exact ⟨parts.flatten, h.store _, rfl, rfl, contents_store h hroom, fun hended =>
          absurd (hlives.symm.trans hended) Bool.noConfusion⟩
      · rw [write_unchanged hok]
        exact ⟨[], .refl h⟩

theorem grown_sufferAll (h : q.Round) (deeds : List Deed) :
    ∃ more, Grown q more (q.sufferAll deeds) := by
  induction deeds generalizing q with
  | nil => exact ⟨[], .refl h⟩
  | cons deed deeds ih =>
    obtain ⟨xs, hfirst⟩ := grown_suffer h deed
    obtain ⟨ys, hrest⟩ := ih hfirst.round
    exact ⟨xs ++ ys, hfirst.trans hrest⟩

/-! ## Giving up -/

/-- A look that finds too little leaves the queue, and its side is open. -/
theorem look_none (h : q.look side token n = (.ok none, q')) :
    q = q' ∧ side.closed = false ∧ n < q.capacity ∧ q.used < n := by
  unfold look at h
  split at h
  · cases h
  next hopen =>
  split at h
  · cases h
  next hsmall =>
  split at h
  · cases h
  · split at h
    · cases h
    next hfew =>
    cases h
    exact ⟨rfl, Bool.not_eq_true _ ▸ hopen, Nat.lt_of_not_le hsmall, Nat.lt_of_not_le hfew⟩

/-- A look never says that the producer is gone. -/
theorem look_ne_peerGone {pid : Nat} : (q.look side token n).1 ≠ .error (.peerGone pid) := by
  unfold look
  split
  · nofun
  · split
    · nofun
    · split
      · nofun
      · split <;> nofun

/-- A retry that finds nothing and goes on waiting has looked in vain. -/
theorem retry_none {amid : List Deed} (h : q.retry side token n amid = (.ok none, q')) :
    q' = q.sufferAll amid := by
  unfold retry at h
  rcases hlook : q.look side token n with ⟨_ | _ | _, q₁⟩
  · rw [hlook] at h
    cases h
  · obtain ⟨rfl, -⟩ := look_none hlook
    rw [hlook] at h
    dsimp only at h
    split at h <;> cases h
    rfl
  · rw [hlook] at h
    cases h

/-- A retry that gives up looked in vain, and then found the producer ended. -/
theorem retry_peerGone {amid : List Deed} {pid : Nat}
    (h : q.retry side token n amid = (.error (.peerGone pid), q')) :
    q' = q.sufferAll amid ∧ q'.producerLives = false ∧ q'.producer = pid ∧
      side.closed = false ∧ n < q.capacity ∧ q.used < n := by
  unfold retry at h
  rcases hlook : q.look side token n with ⟨e | _ | _, q₁⟩
  · rw [hlook] at h
    cases h
    exact absurd (congrArg Prod.fst hlook) look_ne_peerGone
  · obtain ⟨rfl, hopen, hcapacity, hfew⟩ := look_none hlook
    rw [hlook] at h
    dsimp only at h
    unfold probe at h
    cases hlives : (q.sufferAll amid).producerLives with
    | true => rw [hlives] at h; cases h
    | false =>
      rw [hlives] at h
      cases h
      exact ⟨rfl, hlives, rfl, hopen, hcapacity, hfew⟩
  · rw [hlook] at h
    cases h

/-- What is true where a read has given up. -/
structure GivenUp (q : Segment) (side : Side) (n : Nat) (ts : List Try) (pid : Nat)
    (q' : Segment) : Prop where
  /-- The producer has ended. -/
  ended : q'.producerLives = false ∧ q'.producer = pid
  /-- The last look found fewer bytes than were wanted, and what is there now is
  those and what the producer wrote after that look. -/
  last : ∃ front t back seen more, ts = front ++ t :: back ∧
    q.readThrough side n front = (.ok none, seen) ∧ seen.used < n ∧
    Grown seen more (seen.sufferAll t.amid) ∧ q' = seen.sufferAll t.amid ∧
    (q'.used < n ↔ seen.used + more.length < n)
  /-- If it wrote enough, another read takes the bytes. -/
  again : n ≤ q'.used →
    q'.read side {} n = (.ok (some (q'.contents.take n)), (q'.take n).2)

/-- **A read gives up over an ended producer whose bytes were too few when
it looked.** By induction on the retries. -/
theorem readThrough_peerGone (hq : q.Round) {ts : List Try} {pid : Nat}
    (h : q.readThrough side n ts = (.error (.peerGone pid), q')) :
    GivenUp q side n ts pid q' := by
  induction ts generalizing q with
  | nil => cases h
  | cons t ts ih =>
    unfold readThrough at h
    rcases hretry : q.retry side t.token n t.amid with ⟨e | _ | _, q₁⟩
    · -- This retry gives up, and so its look is the last.
      rw [hretry] at h
      cases h
      obtain ⟨rfl, hended, hpid, hopen, hcapacity, hfew⟩ := retry_peerGone hretry
      obtain ⟨more, hgrown⟩ := grown_sufferAll hq t.amid
      refine ⟨⟨hended, hpid⟩, ⟨[], t, ts, q, more, rfl, rfl, hfew, hgrown, rfl, ?_⟩, fun hn => ?_⟩
      · rw [← length_contents, hgrown.contents_eq, List.length_append, length_contents]
      · exact read_of_fits hgrown.round hopen rfl hn
    · -- It goes on waiting, over a queue that has only been written to.
      rw [hretry] at h
      obtain rfl := retry_none hretry
      obtain ⟨xs, hamid⟩ := grown_sufferAll hq t.amid
      obtain ⟨ys, hlater⟩ := grown_sufferAll hamid.round t.later
      obtain ⟨hended, ⟨front, t', back, seen, more, rfl, hfront, hlast⟩, hagain⟩ :=
        ih hlater.round h
      refine ⟨hended, ⟨t :: front, t', back, seen, more, rfl, ?_, hlast⟩, hagain⟩
      unfold readThrough
      rw [hretry]
      exact hfront
    · rw [hretry] at h
      cases h

/-- The smallest race: three of four bytes are there at the look, and the
producer writes the fourth and ends before the question. -/
def overtaken : Segment × List Deed :=
  (({ key := 0, capacity := 16, producer := 1 } : Segment).store (Bytes.ascii "abc"),
    [.write { owner := true } {} [Bytes.ascii "d"], .exit])

theorem round_overtaken : overtaken.1.Round :=
  Round.store ⟨by decide, by decide, by decide, by decide⟩ _

/-- The read gives up with all four bytes on the queue. -/
theorem retry_overtaken :
    (overtaken.1.retry {} {} 4 overtaken.2).1 = .error (.peerGone 1) ∧
      ¬ (overtaken.1.retry {} {} 4 overtaken.2).2.used < 4 :=
  ⟨rfl, by decide +kernel⟩

theorem readThrough_peerGone_overtaken :
    overtaken.1.Round ∧
      (overtaken.1.readThrough {} 4 [{ amid := overtaken.2 }]).1 = .error (.peerGone 1) ∧
      GivenUp overtaken.1 {} 4 [{ amid := overtaken.2 }] 1
        (overtaken.1.readThrough {} 4 [{ amid := overtaken.2 }]).2 := by
  have hgone : (overtaken.1.readThrough {} 4 [{ amid := overtaken.2 }]).1
      = .error (.peerGone 1) := rfl
  exact ⟨round_overtaken, hgone, readThrough_peerGone round_overtaken (Prod.ext hgone rfl)⟩

end Segment
end Intake
