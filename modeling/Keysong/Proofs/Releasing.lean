import Keysong.Proofs.Passages

/-!
# What is struck is released

The messages of a track are sorted by tick, and releases come before strikes at the same tick, so
that a note that is struck again at once is released first.  This module says what that order does
to the calls of a track: which strikes are followed by their own release, and which notes are left
sounding when the file is over.

## Main Definitions

* `ReleasedIn` — a strike is followed by its release before its note is struck again
* `soundsAfter` — whether a note sounds after some messages
* `Track.Releases` — what the entries of a file say about the calls that it was made from

## Main Statements

* `Track.Consists.releasedIn_iff` — a strike is followed by its release if its call has ticks
* `Track.Consists.sounds_iff` — which notes are left sounding
* `sum_deltas` — the ticks between messages add up to the last one
* `struck_then_released` — what is struck is released, unless its call has no ticks

### Why the length decides

A call that ends where it starts has its releases at the tick of its strikes, and the order that
takes releases first puts them in front.  Any other call has its strikes first, and what lies
between a strike and its release by the order lies within the call: an earlier call is over, a later
one begins with a strike that the order puts behind the release, and the call itself strikes no note
twice.
-/

namespace Keysong.Midi

/-! ## The order of messages -/

theorem Placed.key_lt_iff (a b : Placed) : a.key < b.key ↔ a.tick < b.tick ∨ a.tick = b.tick ∧
    (a.isStrike.toNat < b.isStrike.toNat ∨
      a.isStrike.toNat = b.isStrike.toNat ∧ a.serial < b.serial) := by
  rw [Placed.key, Placed.key, Prod.Lex.toLex_lt_toLex, Prod.Lex.toLex_lt_toLex]

/-- Messages that are numbered one by one are sorted without ties. -/
theorem strict_sorted {t : Track} (numbered : (t.placed.map Placed.serial).Nodup) :
    t.sorted.Pairwise fun a b => a.key < b.key := by
  have serials : (t.sorted.map Placed.serial).Nodup :=
    ((List.mergeSort_perm t.placed Placed.notAfter).map Placed.serial).nodup_iff.mpr numbered
  refine ((pairwise_sorted t).and (List.pairwise_map.mp serials)).imp fun {a b} before => ?_
  refine lt_of_le_of_ne before.1 fun same => before.2 ?_
  exact congrArg (fun k => (ofLex (ofLex k).2).2) same

/-- In a row without ties, what is between two entries by its place is so by its key. -/
theorem exists_between {row : List Placed} (sorted : row.Pairwise fun a b => a.key < b.key)
    {a b : Placed} (first : a ∈ row) (second : b ∈ row) (before : a.key < b.key) :
    ∃ front between behind, row = front ++ a :: (between ++ b :: behind) ∧
      ∀ m ∈ between, a.key < m.key ∧ m.key < b.key := by
  obtain ⟨front, rest, rfl⟩ := List.append_of_mem first
  obtain ⟨-, sorted, earlier⟩ := List.pairwise_append.mp sorted
  obtain ⟨above, sorted⟩ := List.pairwise_cons.mp sorted
  have later : b ∈ rest := by
    rcases List.mem_append.mp second with mem | mem
    · exact absurd (earlier b mem a List.mem_cons_self) before.asymm
    · exact (List.mem_cons.mp mem).resolve_left fun same => before.ne (same ▸ rfl)
  obtain ⟨between, behind, rfl⟩ := List.append_of_mem later
  refine ⟨front, between, behind, rfl, fun m mem => ⟨?_, ?_⟩⟩
  · exact above m (List.mem_append_left _ mem)
  · exact (List.pairwise_append.mp sorted).2.2 m mem b List.mem_cons_self

/-! ## What sounds -/

/-- The note that a message is about. -/
def Message.number? (m : Message) : Option Data := m.note?.map (·.2.1)

/-- Whether a note sounds once something has been said about a note. -/
def hears (note : Data) (sounding : Bool) (said : Bool × Data × Data) : Bool :=
  if said.2.1 = note then said.1 && decide (said.2.2 ≠ noStrength) else sounding

/-- Whether a note sounds after some messages, if none sounds before. -/
def soundsAfter (note : Data) (messages : List Message) : Bool :=
  (messages.filterMap Message.note?).foldl (hears note) false

/-- What is not about a note does not matter to it. -/
theorem foldl_hears_of_others {note : Data} {messages : List Message}
    (others : ∀ m ∈ messages, m.number? ≠ some note) (sounding : Bool) :
    (messages.filterMap Message.note?).foldl (hears note) sounding = sounding := by
  induction messages with
  | nil => rfl
  | cons m rest ih =>
    obtain ⟨here, behind⟩ := List.forall_mem_cons.mp others
    cases about : m.note? with
    | none =>
      rw [List.filterMap_cons_none about]
      exact ih behind
    | some said =>
      have other : said.2.1 ≠ note := fun same => here (by rw [Message.number?, about, ← same]; rfl)
      rw [List.filterMap_cons_some about, List.foldl_cons, hears, if_neg other]
      exact ih behind

/-- The last message about a note decides whether it sounds. -/
theorem soundsAfter_of_last {note strength : Data} {strikes : Bool} {m : Message}
    (about : m.note? = some (strikes, note, strength)) (front : List Message)
    {behind : List Message} (others : ∀ m ∈ behind, m.number? ≠ some note) :
    soundsAfter note (front ++ m :: behind) = (strikes && decide (strength ≠ noStrength)) := by
  unfold soundsAfter
  rw [List.filterMap_append, List.filterMap_cons_some about, List.foldl_append, List.foldl_cons,
    foldl_hears_of_others others]
  exact if_pos rfl

/-- So does the message of a row that comes last of those about the note by its key. -/
theorem soundsAfter_of_highest {row : List Placed} (sorted : row.Pairwise fun a b => a.key < b.key)
    {a : Placed} (mem : a ∈ row) {note strength : Data} {strikes : Bool}
    (about : a.message.note? = some (strikes, note, strength))
    (highest : ∀ b ∈ row, b.message.number? = some note → b.key ≤ a.key) :
    soundsAfter note (row.map Placed.message) = (strikes && decide (strength ≠ noStrength)) := by
  obtain ⟨front, behind, rfl⟩ := List.append_of_mem mem
  obtain ⟨above, -⟩ := List.pairwise_cons.mp (List.pairwise_append.mp sorted).2.1
  rw [List.map_append, List.map_cons]
  refine soundsAfter_of_last about _ (List.forall_mem_map.mpr fun b later same => ?_)
  exact absurd (above b later)
    (highest b (List.mem_append_right _ (List.mem_cons_of_mem a later)) same).not_gt

/-! ## The messages of passages -/

/-- Two entries of a row are the same, or the relation that holds along it holds between them. -/
theorem trichotomy {α : Type} {R : α → α → Prop} {row : List α} (along : row.Pairwise R) {a b : α}
    (first : a ∈ row) (second : b ∈ row) : a = b ∨ R a b ∨ R b a := by
  have : Std.Symm fun x y => R x y ∨ R y x := ⟨fun _ _ => Or.symm⟩
  have apart : row.Pairwise fun x y => R x y ∨ R y x := along.imp Or.inl
  by_cases same : a = b
  · exact .inl same
  · exact .inr (apart.forall first second same)

/-- Where a condition holds somewhere in a row, there is a last place. -/
theorem exists_last {α : Type} {P : α → Prop} {row : List α} (some : ∃ a ∈ row, P a) :
    ∃ front a behind, row = front ++ a :: behind ∧ P a ∧ ∀ b ∈ behind, ¬ P b := by
  classical
  induction row with
  | nil => simp at some
  | cons x rest ih =>
    by_cases later : ∃ a ∈ rest, P a
    · obtain ⟨front, a, behind, rfl, here, none⟩ := ih later
      exact ⟨x :: front, a, behind, rfl, here, none⟩
    · obtain ⟨a, mem, here⟩ := some
      have first : a = x := (List.mem_cons.mp mem).resolve_right fun mem => later ⟨a, mem, here⟩
      exact ⟨[], x, rest, rfl, first ▸ here, fun b mem holds => later ⟨b, mem, holds⟩⟩

variable {channel : Channel} {p q : Passage} {m : Placed} {note : Data}

/-- A message of a passage strikes or releases one of its notes, with a number of the passage. -/
theorem of_mem_messages (mem : m ∈ p.messages channel) :
    ∃ pair ∈ p.pairs channel, ∃ note ∈ p.notes, ∃ n, p.serial ≤ n ∧ n + 1 < p.nextSerial ∧
      pair = (⟨p.start, true, n, .noteOn channel note p.strength⟩,
        ⟨p.stop, false, n + 1, .noteOff channel note noStrength⟩) ∧ (m = pair.1 ∨ m = pair.2) := by
  obtain ⟨pair, here, mem⟩ := List.mem_flatMap.mp mem
  obtain ⟨note, among, n, least, most, same⟩ := of_mem_pairsFrom here
  refine ⟨pair, here, note, among, n, least, most, same, ?_⟩
  simpa using mem

/-- What belongs to an earlier passage comes before every strike of a later one. -/
theorem key_lt_strike (before : q.Before p) (forth : q.start ≤ q.stop)
    (mem : m ∈ q.messages channel) {pair : Placed × Placed} (here : pair ∈ p.pairs channel) :
    m.key < pair.1.key := by
  obtain ⟨_, -, _, -, n, least, most, rfl, side⟩ := of_mem_messages mem
  obtain ⟨_, -, n', least', most', rfl⟩ := of_mem_pairsFrom here
  obtain ⟨done, numbered⟩ := before
  rw [Placed.key_lt_iff]
  rcases side with rfl | rfl
  · dsimp only
    omega
  · simp only [Bool.toNat_true, Bool.toNat_false]
    omega

/-- The strikes of a later passage come after every release of an earlier one. -/
theorem release_key_lt (before : p.Before q)
    (mem : m ∈ q.messages channel) (strikes : m.isStrike = true) {pair : Placed × Placed}
    (here : pair ∈ p.pairs channel) : pair.2.key < m.key := by
  obtain ⟨_, -, _, -, n, least, most, rfl, rfl | rfl⟩ := of_mem_messages mem
  · obtain ⟨_, -, n', least', most', rfl⟩ := of_mem_pairsFrom here
    obtain ⟨done, numbered⟩ := before
    rw [Placed.key_lt_iff]
    simp only [Bool.toNat_true, Bool.toNat_false]
    omega
  · cases strikes

theorem numbers_pairsFrom {start stop serial : Nat} {strength : Data} {notes : List Data} :
    (pairsFrom channel start stop strength serial notes).map
      (fun pair => pair.1.message.number?) = notes.map some := by
  induction notes generalizing serial with
  | nil => rfl
  | cons note rest ih => exact congrArg (some note :: ·) ih

/-- In a passage of distinct notes, one note is struck once. -/
theorem pair_eq_of_number (distinct : p.notes.Nodup) {pair pair' : Placed × Placed}
    (here : pair ∈ p.pairs channel) (here' : pair' ∈ p.pairs channel)
    (same : pair.1.message.number? = pair'.1.message.number?) : pair = pair' := by
  have numbers : (p.pairs channel).map (fun pair => pair.1.message.number?) = p.notes.map some :=
    numbers_pairsFrom
  have once : ((p.pairs channel).map fun pair => pair.1.message.number?).Nodup := by
    rw [numbers]
    exact distinct.map (Option.some_injective _)
  exact List.inj_on_of_nodup_map once here here' same

/-! ## Strikes and their releases -/

/-- A strike is followed by its release, and its note is not struck again between them. -/
def ReleasedIn (row : List Placed) (pair : Placed × Placed) : Prop :=
  ∃ front between behind, row = front ++ pair.1 :: (between ++ pair.2 :: behind) ∧
    ∀ m ∈ between, m.isStrike = true → m.message.number? ≠ pair.1.message.number?

/-- The messages of a track are those of passages of distinct notes, one behind the other. -/
structure Track.Consists (t : Track) (passages : List Passage) : Prop where
  placed : t.placed = passages.flatMap (Passage.messages t.channel)
  apart : passages.Pairwise Passage.Before
  forth : ∀ p ∈ passages, p.start ≤ p.stop
  numbered : (t.placed.map Placed.serial).Nodup
  distinct : ∀ p ∈ passages, p.notes.Nodup
  loud : ∀ p ∈ passages, p.strength ≠ noStrength

namespace Track.Consists

variable {t : Track} {passages : List Passage} {p : Passage} {m : Placed} {pair : Placed × Placed}

theorem mem_sorted (consists : t.Consists passages) :
    m ∈ t.sorted ↔ ∃ p ∈ passages, m ∈ p.messages t.channel := by
  unfold Track.sorted
  rw [(List.mergeSort_perm ..).mem_iff, consists.placed, List.mem_flatMap]

theorem strike_mem (consists : t.Consists passages) (mem : p ∈ passages)
    (here : pair ∈ p.pairs t.channel) : pair.1 ∈ t.sorted :=
  consists.mem_sorted.mpr ⟨p, mem, List.mem_flatMap.mpr ⟨pair, here, List.mem_cons_self⟩⟩

theorem release_mem (consists : t.Consists passages) (mem : p ∈ passages)
    (here : pair ∈ p.pairs t.channel) : pair.2 ∈ t.sorted :=
  consists.mem_sorted.mpr ⟨p, mem, List.mem_flatMap.mpr
    ⟨pair, here, List.mem_cons_of_mem _ List.mem_cons_self⟩⟩

/-- A strike comes before its release if the passage has ticks, and behind it if it has none. -/
theorem key_lt_iff (consists : t.Consists passages) (mem : p ∈ passages)
    (here : pair ∈ p.pairs t.channel) : pair.1.key < pair.2.key ↔ p.start < p.stop := by
  have forth := consists.forth p mem
  obtain ⟨_, -, n, -, -, rfl⟩ := of_mem_pairsFrom here
  rw [Placed.key_lt_iff]
  simp only [Bool.toNat_true, Bool.toNat_false]
  omega

/-- Between a strike and its release, the note is not struck. -/
theorem number_ne_of_between (consists : t.Consists passages) (mem : p ∈ passages)
    (here : pair ∈ p.pairs t.channel) (sorted : m ∈ t.sorted) (strikes : m.isStrike = true)
    (above : pair.1.key < m.key) (below : m.key < pair.2.key) :
    m.message.number? ≠ pair.1.message.number? := by
  intro same
  obtain ⟨q, others, inside⟩ := consists.mem_sorted.mp sorted
  rcases trichotomy consists.apart others mem with rfl | earlier | later
  · obtain ⟨pair', here', _, -, n, -, -, shape, side⟩ := of_mem_messages inside
    have strike : m = pair'.1 := by
      rcases side with first | second
      · exact first
      · rw [second, shape] at strikes
        cases strikes
    have pairs := pair_eq_of_number (consists.distinct q mem) here' here (strike ▸ same)
    exact absurd above (by rw [strike, pairs]; exact lt_irrefl _)
  · exact above.asymm (key_lt_strike earlier (consists.forth q others) inside here)
  · exact below.asymm (release_key_lt later inside strikes here)

/-- **A strike is followed by its release if and only if its call has ticks.** -/
theorem releasedIn_iff (consists : t.Consists passages) (mem : p ∈ passages)
    (here : pair ∈ p.pairs t.channel) : ReleasedIn t.sorted pair ↔ p.start < p.stop := by
  have sorted := strict_sorted consists.numbered
  rw [← consists.key_lt_iff mem here]
  constructor
  · rintro ⟨front, between, behind, row, -⟩
    rw [row] at sorted
    exact (List.pairwise_cons.mp (List.pairwise_append.mp sorted).2.1).1 pair.2
      (List.mem_append_right _ List.mem_cons_self)
  · intro long
    obtain ⟨front, between, behind, row, inside⟩ := exists_between sorted
      (consists.strike_mem mem here) (consists.release_mem mem here) long
    refine ⟨front, between, behind, row, fun m among strikes => ?_⟩
    have whole : m ∈ t.sorted := by
      rw [row]
      exact List.mem_append_right _ (List.mem_cons_of_mem _ (List.mem_append_left _ among))
    exact consists.number_ne_of_between mem here whole strikes (inside m among).1 (inside m among).2

/-- What is about a note of the last passage that has it does not come behind both its strike and
its release. -/
theorem key_le_of_last (consists : t.Consists passages) {note : Data} {front behind : List Passage}
    (last : passages = front ++ p :: behind) (none : ∀ q ∈ behind, note ∉ q.notes)
    (here : pair ∈ p.pairs t.channel) (struck : pair.1.message.number? = some note)
    (sorted : m ∈ t.sorted) (about : m.message.number? = some note) :
    m.key ≤ pair.1.key ∨ m = pair.2 := by
  obtain ⟨q, others, inside⟩ := consists.mem_sorted.mp sorted
  obtain ⟨pair', here', note', among, n, -, -, shape, side⟩ := of_mem_messages inside
  have same : pair'.1.message.number? = some note' ∧ m.message.number? = some note' := by
    rcases side with rfl | rfl <;> rw [shape] <;> exact ⟨rfl, rfl⟩
  obtain rfl : note' = note := Option.some.inj (same.2.symm.trans about)
  rw [last] at others
  rcases List.mem_append.mp others with earlier | others
  · have before : q.Before p :=
      (List.pairwise_append.mp (last ▸ consists.apart)).2.2 q earlier p List.mem_cons_self
    have forth := consists.forth q (last ▸ List.mem_append_left _ earlier)
    exact .inl (key_lt_strike before forth inside here).le
  · rcases List.mem_cons.mp others with rfl | later
    · have distinct := consists.distinct q
        (last ▸ List.mem_append_right _ List.mem_cons_self)
      have pairs := pair_eq_of_number distinct here' here (same.1.trans struck.symm)
      rw [← pairs]
      exact side.imp (fun strike => le_of_eq (congrArg Placed.key strike)) id
    · exact absurd among (none q later)

/-- The last passage that has a note leaves it sounding if and only if it has no ticks. -/
theorem sounds_last (consists : t.Consists passages) {note : Data} {front behind : List Passage}
    (last : passages = front ++ p :: behind) (among : note ∈ p.notes)
    (none : ∀ q ∈ behind, note ∉ q.notes) :
    soundsAfter note (t.sorted.map Placed.message) = true ↔ p.start = p.stop := by
  have sorted := strict_sorted consists.numbered
  have mem : p ∈ passages := last ▸ List.mem_append_right _ List.mem_cons_self
  have forth := consists.forth p mem
  obtain ⟨n, here⟩ := exists_mem_pairsFrom among
  have highest := fun m mem => @key_le_of_last _ _ _ m _ consists _ _ _ last none here rfl mem
  have order := consists.key_lt_iff mem here
  by_cases long : p.start < p.stop
  · have quiet := soundsAfter_of_highest sorted (consists.release_mem mem here) rfl fun m mem about =>
      (highest m mem about).elim (fun below => below.trans (order.mpr long).le)
        fun same => le_of_eq (congrArg Placed.key same)
    rw [quiet]
    exact ⟨fun sounds => Bool.noConfusion sounds, fun same => absurd long (by omega)⟩
  · have loud := soundsAfter_of_highest sorted (consists.strike_mem mem here) rfl fun m mem about =>
      (highest m mem about).elim id fun same =>
        (le_of_eq (congrArg Placed.key same)).trans (not_lt.mp fun above => long (order.mp above))
    rw [loud, Bool.true_and, decide_eq_true_iff]
    exact ⟨fun _ => by omega, fun _ => consists.loud p mem⟩

/-- **A note is left sounding if and only if the last call that strikes it has no ticks.** -/
theorem sounds_iff (consists : t.Consists passages) (note : Data) :
    soundsAfter note (t.sorted.map Placed.message) = true ↔
      ∃ front p behind, passages = front ++ p :: behind ∧ note ∈ p.notes ∧
        (∀ q ∈ behind, note ∉ q.notes) ∧ p.start = p.stop := by
  constructor
  · intro sounds
    by_cases had : ∃ p ∈ passages, note ∈ p.notes
    · obtain ⟨front, p, behind, last, among, none⟩ := exists_last had
      exact ⟨front, p, behind, last, among, none,
        (consists.sounds_last last among none).mp sounds⟩
    · have others : ∀ m ∈ t.sorted.map Placed.message, m.number? ≠ some note := by
        refine List.forall_mem_map.mpr fun m sorted about => had ?_
        obtain ⟨q, mem, inside⟩ := consists.mem_sorted.mp sorted
        obtain ⟨pair, -, other, among, n, -, -, rfl, rfl | rfl⟩ := of_mem_messages inside
        · exact ⟨q, mem, Option.some.inj about ▸ among⟩
        · exact ⟨q, mem, Option.some.inj about ▸ among⟩
      rw [soundsAfter, foldl_hears_of_others others] at sounds
      exact Bool.noConfusion sounds
  · rintro ⟨front, p, behind, last, among, none, empty⟩
    exact (consists.sounds_last last among none).mpr empty

end Track.Consists

/-! ## Tracks after calls that are taken -/

theorem Lays.consists {resolution cursor serial last : Nat} {calls : List TimedNote}
    {passages : List Passage} {t : Track}
    (lays : Lays resolution cursor serial calls passages last)
    (placed : t.placed = passages.flatMap (Passage.messages t.channel))
    (once : ∀ call ∈ calls, call.numbers.Nodup) : t.Consists passages where
  placed := placed
  apart := lays.pairwise
  forth p mem := (lays.between.2 p mem).2.1
  numbered := by
    obtain ⟨n, serials⟩ := lays.serials t.channel
    rw [placed, serials]
    exact List.nodup_range'
  distinct := lays.distinct once
  loud p mem := (lays.loud p mem).2

/-- In ascending order, the ticks between messages add up to the last one. -/
theorem sum_deltas {row : List Placed} (ascending : row.Pairwise fun a b => a.tick ≤ b.tick)
    {last top : Nat} (behind : ∀ m ∈ row, last ≤ m.tick ∧ m.tick ≤ top)
    (reached : row = [] ∧ top = last ∨ ∃ m ∈ row, m.tick = top) :
    last + ((Track.deltas last row).map (·.1)).sum = top := by
  induction row generalizing last with
  | nil =>
    rcases reached with ⟨-, rfl⟩ | ⟨m, mem, -⟩
    · rfl
    · cases mem
  | cons m rest ih =>
    obtain ⟨least, ascending'⟩ := List.pairwise_cons.mp ascending
    obtain ⟨⟨low, high⟩, behind'⟩ := List.forall_mem_cons.mp behind
    have reached' : rest = [] ∧ top = m.tick ∨ ∃ m' ∈ rest, m'.tick = top := by
      obtain ⟨m', mem, stop⟩ : ∃ m' ∈ m :: rest, m'.tick = top :=
        reached.resolve_left fun none => List.cons_ne_nil m rest none.1
      rcases List.mem_cons.mp mem with rfl | mem
      · rcases rest with _ | ⟨next, rest⟩
        · exact .inl ⟨rfl, stop.symm⟩
        · have least := least next List.mem_cons_self
          have most := (behind' next List.mem_cons_self).2
          exact .inr ⟨next, List.mem_cons_self, by omega⟩
      · exact .inr ⟨m', mem, stop⟩
    have sum := ih ascending' (fun m' mem => ⟨least m' mem, (behind' m' mem).2⟩) reached'
    rw [Track.deltas, List.map_cons, List.sum_cons]
    dsimp only
    omega

/-! ## The file -/

theorem messages_deltas (last : Nat) (row : List Placed) :
    (Track.deltas last row).map (·.2) = row.map Placed.message := by
  induction row generalizing last with
  | nil => rfl
  | cons m rest ih => exact congrArg (m.message :: ·) (ih m.tick)

/-- The entries around the notes are about no note. -/
theorem soundsAfter_entries (note : Data) {entries : List (Nat × Message)}
    {heading : Option (List Text.CodePoint)} {micros : Nat} {row : List Placed}
    (shape : entries = (heading.map fun s => (0, Message.trackName s)).toList
      ++ (0, .setTempo micros) :: (Track.deltas 0 row ++ [(0, .endOfTrack)])) :
    soundsAfter note (entries.map (·.2)) = soundsAfter note (row.map Placed.message) := by
  subst shape
  unfold soundsAfter
  rw [List.map_append, List.map_cons, List.map_append, messages_deltas, List.filterMap_append,
    List.filterMap_cons_none rfl, List.filterMap_append]
  cases heading <;> exact congrArg _ (List.append_nil _)

theorem Track.cursor_of_start {resolution channel : Int} {name bpm : Value} {opened : Track}
    (started : Track.start resolution channel name bpm = .ok opened) : opened.cursor = 0 := by
  unfold Track.start at started
  split at started
  · obtain ⟨channel, -, started⟩ := exists_of_bind started
    obtain ⟨tempo, -, started⟩ := exists_of_bind started
    obtain rfl := Except.ok.inj started
    rfl
  · cases started

/-- The ticks between the entries around the notes are none. -/
theorem sum_entries {entries : List (Nat × Message)} {heading : Option (List Text.CodePoint)}
    {micros : Nat} {row : List Placed}
    (shape : entries = (heading.map fun s => (0, Message.trackName s)).toList
      ++ (0, .setTempo micros) :: (Track.deltas 0 row ++ [(0, .endOfTrack)])) :
    (entries.map (·.1)).sum = ((Track.deltas 0 row).map (·.1)).sum := by
  subst shape
  cases heading <;> simp

/-- What the entries of a file say about the calls that it was made from. -/
structure Track.Releases (t : Track) (calls : List TimedNote) (passages : List Passage)
    (entries : List (Nat × Message)) : Prop where
  /-- The calls lie one behind the other from the beginning to the cursor. -/
  laid : Lays t.resolution 0 0 calls passages t.cursor
  /-- A call has ticks unless its thirty-second notes and the resolution are too few. -/
  lengths : List.Forall₂ (fun call p => p.start < p.stop ↔
    8 ≤ (NoteValue.ofCode call.code).units * t.resolution) calls passages
  /-- The messages are those of the calls. -/
  placed : t.sorted.Perm (passages.flatMap (Passage.messages t.channel))
  /-- They stand behind a heading that takes no time, and in front of the end. -/
  shape : ∃ (heading : Option (List Text.CodePoint)) (micros : Nat),
    entries = (heading.map fun s => (0, Message.trackName s)).toList
      ++ (0, .setTempo micros) :: (Track.deltas 0 t.sorted ++ [(0, .endOfTrack)])
  /-- No message is in front of the one before it: adding up gives back their ticks. -/
  ticks : absolute 0 (Track.deltas 0 t.sorted) = t.sorted.map fun m => (m.tick, m.message)
  sum : (entries.map (·.1)).sum = t.cursor
  /-- A strike is followed by its release if and only if its call has ticks. -/
  released : ∀ p ∈ passages, ∀ pair ∈ p.pairs t.channel,
    (ReleasedIn t.sorted pair ↔ p.start < p.stop)
  /-- A note is left sounding if and only if the last call that strikes it has no ticks. -/
  sounding : ∀ note, soundsAfter note (entries.map (·.2)) = true ↔
    ∃ front p behind, passages = front ++ p :: behind ∧ note ∈ p.notes ∧
      (∀ q ∈ behind, note ∉ q.notes) ∧ p.start = p.stop

/-- **What is struck is released, unless its call has no ticks.**  A track is opened at any
resolution and on any channel, at a tempo of 24 bits and with a name that is a text, and calls are
made that are all taken, none of which strikes a note twice.  Then the track has entries.  The ticks
between them are the true distances and add up to the cursor; every strike is followed by its own
release before its note is struck again, if and only if its call has ticks; and the notes that are
left sounding are those whose last call has none.  At a resolution of eight and more every call has
ticks, and nothing is left sounding. -/
theorem struck_then_released {resolution channel : Int} {name bpm : Value} {opened t : Track}
    {micros : Nat} {calls : List TimedNote}
    (started : Track.start resolution channel name bpm = .ok opened) (named : IsName name)
    (fits : microseconds opened.tempo.bpm = .ok micros)
    (once : ∀ call ∈ calls, call.numbers.Nodup) (taken : opened.addAll calls = .ok t) :
    t.resolution = resolution.toNat ∧ ∃ passages entries, t.messages = .ok entries ∧
      t.Releases calls passages entries ∧
      (8 ≤ resolution → (∀ p ∈ passages, ∀ pair ∈ p.pairs t.channel, ReleasedIn t.sorted pair) ∧
        ∀ note, soundsAfter note (entries.map (·.2)) = false) := by
  obtain ⟨resolution', name', nothing⟩ := Track.eq_of_start started
  obtain ⟨passages, lays, placed, grown⟩ := exists_lays taken
  rw [Track.cursor_of_start started, nothing] at lays
  rw [nothing, List.nil_append, ← grown.channel] at placed
  rw [← grown.resolution] at lays
  have consists := lays.consists placed once
  have fits' : microseconds t.tempo.bpm = .ok micros := by rw [grown.tempo, fits]
  obtain ⟨heading, written⟩ := messages_eq t (by rw [grown.name, name']; exact named) fits'
  have ascending := ascending_sorted t
  have bounded : ∀ m ∈ t.sorted, 0 ≤ m.tick ∧ m.tick ≤ t.cursor := by
    intro m mem
    obtain ⟨p, among, inside⟩ := consists.mem_sorted.mp mem
    obtain ⟨-, forth, stop, -⟩ := lays.between.2 p among
    obtain ⟨_, -, _, -, n, -, -, rfl, rfl | rfl⟩ := of_mem_messages inside
    · exact ⟨Nat.zero_le _, forth.trans stop⟩
    · exact ⟨Nat.zero_le _, stop⟩
  have reached : t.sorted = [] ∧ t.cursor = 0 ∨ ∃ m ∈ t.sorted, m.tick = t.cursor := by
    rcases lays.exists_stop with ⟨rfl, empty⟩ | ⟨p, among, stop⟩
    · refine .inl ⟨List.eq_nil_iff_forall_not_mem.mpr fun m mem => ?_, empty⟩
      obtain ⟨p, among, -⟩ := consists.mem_sorted.mp mem
      exact absurd among List.not_mem_nil
    · obtain ⟨note, has⟩ := List.exists_mem_of_ne_nil _ (lays.loud p among).1
      obtain ⟨n, here⟩ := exists_mem_pairsFrom has
      exact .inr ⟨_, consists.release_mem among here, stop⟩
  have sum : (Track.deltas 0 t.sorted |>.map (·.1)).sum = t.cursor := by
    rw [← sum_deltas ascending bounded reached, Nat.zero_add]
  have releases : t.Releases calls passages _ :=
    { laid := lays
      lengths := lays.lengths
      placed := placed ▸ List.mergeSort_perm ..
      shape := ⟨heading, micros, rfl⟩
      ticks := absolute_deltas (fun m _ => Nat.zero_le m.tick) ascending
      sum := (sum_entries rfl).trans sum
      released := fun p mem pair here => consists.releasedIn_iff mem here
      sounding := fun note => by
        rw [soundsAfter_entries note rfl]
        exact consists.sounds_iff note }
  refine ⟨grown.resolution.trans resolution', passages, _, written, releases, fun fine => ?_⟩
  have long := lays.long (by rw [grown.resolution, resolution']; omega)
  refine ⟨fun p mem pair here => (releases.released p mem pair here).mpr (long p mem),
    fun note => ?_⟩
  rw [← Bool.not_eq_true, releases.sounding]
  rintro ⟨front, p, behind, rfl, -, -, empty⟩
  exact absurd (long p (List.mem_append_right _ List.mem_cons_self)) (by omega)

/-! ### A call without ticks -/

/-- A track without a name, at a moderate tempo. -/
def Track.plain (resolution : Nat) (resolution_pos : 0 < resolution) : Track where
  tempo := Tempo.moderate
  resolution := resolution
  channel := firstChannel
  name := .null
  placed := []
  cursor := 0
  resolution_pos := resolution_pos

theorem Track.start_plain (resolution : Nat) (pos : 0 < resolution) :
    Track.start resolution 0 .null (.float 120.0) = .ok (Track.plain resolution pos) := by
  unfold Track.start
  rw [dif_pos (by simpa using pos), ofValue_moderate]
  rfl

/-- Calls that are all taken leave the track that they leave one by one. -/
theorem Track.afterCalls_of_addAll {t t' : Track} {calls : List TimedNote}
    (taken : t.addAll calls = .ok t') : t.afterCalls calls = t' := by
  induction calls generalizing t with
  | nil => exact Except.ok.inj taken
  | cons call calls ih =>
    unfold Track.addAll at taken
    rw [List.foldlM_cons] at taken
    obtain ⟨next, added, taken⟩ := exists_of_bind taken
    unfold Track.afterCalls
    rw [List.foldl_cons, added]
    exact ih taken

/-- Calls that lead to a track lead to the one that they leave one by one. -/
theorem Track.addAll_of_isSome {t : Track} {calls : List TimedNote}
    (some : (t.addAll calls).toOption.isSome = true) :
    t.addAll calls = .ok (t.afterCalls calls) := by
  cases taken : t.addAll calls with
  | error fault =>
    rw [taken] at some
    cases some
  | ok t' => rw [Track.afterCalls_of_addAll taken]

/-- A chord, and a short note behind it that strikes again. -/
def grace : List TimedNote := [⟨[60, 64], "4", [], 0.5⟩, ⟨[60], "32", [], 0.5⟩]

theorem nodup_grace : ∀ call ∈ grace, call.numbers.Nodup := by decide

theorem taken_grace (resolution : Nat) (pos : 0 < resolution)
    (some : ((Track.plain resolution pos).addAll grace).toOption.isSome = true) :
    (Track.plain resolution pos).addAll grace =
      .ok ((Track.plain resolution pos).afterCalls grace) :=
  Track.addAll_of_isSome some

/-- At a resolution of eight, the shortest note has a tick, and nothing is left sounding. -/
theorem struck_then_released_grace :
    (Track.start 8 0 .null (.float 120.0) = .ok (Track.plain 8 (by decide)) ∧ IsName .null ∧
      microseconds (Track.plain 8 (by decide)).tempo.bpm = .ok 500000 ∧
      (∀ call ∈ grace, call.numbers.Nodup) ∧
      (Track.plain 8 (by decide)).addAll grace =
        .ok ((Track.plain 8 (by decide)).afterCalls grace)) ∧
    ∃ passages entries, ((Track.plain 8 (by decide)).afterCalls grace).messages = .ok entries ∧
      ((Track.plain 8 (by decide)).afterCalls grace).Releases grace passages entries ∧
      ∀ note, soundsAfter note (entries.map (·.2)) = false := by
  have started := Track.start_plain 8 (by decide)
  have taken := taken_grace 8 (by decide) (by decide +kernel)
  obtain ⟨-, passages, entries, written, releases, fine⟩ :=
    struck_then_released started trivial microseconds_moderate nodup_grace taken
  exact ⟨⟨started, trivial, microseconds_moderate, nodup_grace, taken⟩, passages, entries, written,
    releases, (fine (by decide)).2⟩

/-- At a resolution of one, the short note has no ticks: its release is in front of its strike, and
it is left sounding. -/
theorem grace_left_sounding :
    ∃ entries, (Track.start 1 0 .null (.float 120.0) = .ok (Track.plain 1 (by decide)) ∧
      (∀ call ∈ grace, call.numbers.Nodup) ∧
      (Track.plain 1 (by decide)).addAll grace =
        .ok ((Track.plain 1 (by decide)).afterCalls grace)) ∧
      ((Track.plain 1 (by decide)).afterCalls grace).messages = .ok entries ∧
      entries = [(0, .setTempo 500000), (0, .noteOn 0 60 64), (0, .noteOn 0 64 64),
        (1, .noteOff 0 60 0), (0, .noteOff 0 64 0), (0, .noteOff 0 60 0), (0, .noteOn 0 60 64),
        (0, .endOfTrack)] ∧
      soundsAfter 60 (entries.map (·.2)) = true := by
  have started := Track.start_plain 1 (by decide)
  have taken := taken_grace 1 (by decide) (by decide +kernel)
  have placed : ((Track.plain 1 (by decide)).afterCalls grace).placed =
      [⟨0, true, 0, .noteOn 0 60 64⟩, ⟨1, false, 1, .noteOff 0 60 0⟩,
        ⟨0, true, 2, .noteOn 0 64 64⟩, ⟨1, false, 3, .noteOff 0 64 0⟩,
        ⟨1, true, 4, .noteOn 0 60 64⟩, ⟨1, false, 5, .noteOff 0 60 0⟩] := by
    decide +kernel
  have sorted : ((Track.plain 1 (by decide)).afterCalls grace).sorted =
      [⟨0, true, 0, .noteOn 0 60 64⟩, ⟨0, true, 2, .noteOn 0 64 64⟩,
        ⟨1, false, 1, .noteOff 0 60 0⟩, ⟨1, false, 3, .noteOff 0 64 0⟩,
        ⟨1, false, 5, .noteOff 0 60 0⟩, ⟨1, true, 4, .noteOn 0 60 64⟩] := by
    unfold Track.sorted
    rw [placed]
    cbv
  have grown := Track.extends_afterCalls (Track.plain 1 (by decide)) grace
  have called : ((Track.plain 1 (by decide)).afterCalls grace).nameOf = .ok none := by
    unfold Track.nameOf
    rw [grown.name]
    rfl
  have fits : microseconds ((Track.plain 1 (by decide)).afterCalls grace).tempo.bpm =
      .ok 500000 := by
    rw [grown.tempo]
    exact microseconds_moderate
  have written := messages_of_heading called fits
  rw [sorted] at written
  exact ⟨_, ⟨started, nodup_grace, taken⟩, written, rfl, by decide⟩

end Keysong.Midi
