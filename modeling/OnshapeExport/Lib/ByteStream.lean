import Mathlib.Data.List.Basic

/-!
# Lib.ByteStream

Buffered reading of a stream that a transport hands out in fragments. A read returns at most as
much as is asked for and at most one fragment; it returns nothing only at the end of the stream.

* `Transport`, `BufReader` — the two layers, with `read`, `fillBuf` and `consume`.
* `Stream` — what is left to be read, whatever its fragments are.
* `fillBuf_cases`, `read_cases` — what a read does, said of the stream only.
* `Follows` — a computation on a reader that gives what one on its stream gives.
* `Agree` — two computations that leave one stream; `Agree.bind` composes them.
-/

namespace ByteStream

variable {α β γ ε : Type}

/-- What a read finds after the last element: an orderly end, an end without one, or a failure. -/
inductive Ending where
  | closed
  | unexpectedEof
  | failed
deriving DecidableEq, Repr

inductive ReadError where
  | unexpectedEof
  | other
deriving DecidableEq, Repr

def Ending.read : Ending → Except ReadError (List α)
  | .closed => .ok []
  | .unexpectedEof => .error .unexpectedEof
  | .failed => .error .other

structure Transport (α : Type) where
  fragments : List {f : List α // f ≠ []}
  ending : Ending

structure BufReader (α : Type) where
  buffer : List α
  inner : Transport α
  capacity : Nat
  positive : 0 < capacity

structure Stream (α : Type) where
  content : List α
  ending : Ending

def Stream.drop (s : Stream α) (n : Nat) : Stream α := { s with content := s.content.drop n }

/-! ## Reading -/

def Transport.read (t : Transport α) (maximum : Nat) :
    Except ReadError (List α) × Transport α :=
  match t.fragments with
  | [] => (t.ending.read, t)
  | f :: rest =>
    if h : f.1.drop maximum = [] then (.ok f.1, { t with fragments := rest })
    else (.ok (f.1.take maximum), { t with fragments := ⟨f.1.drop maximum, h⟩ :: rest })

/-- The buffer, filled by one read when it is empty. -/
def BufReader.fillBuf (r : BufReader α) : Except ReadError (List α) × BufReader α :=
  match r.buffer with
  | [] =>
    match r.inner.read r.capacity with
    | (.ok bytes, inner) => (.ok bytes, { r with buffer := bytes, inner := inner })
    | (.error e, inner) => (.error e, { r with inner := inner })
  | buffer => (.ok buffer, r)

def BufReader.consume (r : BufReader α) (count : Nat) : BufReader α :=
  { r with buffer := r.buffer.drop count }

/-- A read that is as large as the buffer goes past it when it is empty. -/
def BufReader.read (r : BufReader α) (maximum : Nat) :
    Except ReadError (List α) × BufReader α :=
  if r.buffer = [] ∧ r.capacity ≤ maximum then
    let (result, inner) := r.inner.read maximum
    (result, { r with inner := inner })
  else
    match r.fillBuf with
    | (.error e, r) => (.error e, r)
    | (.ok available, r) =>
      (.ok (available.take maximum), r.consume (min available.length maximum))

/-! ## What is left to be read -/

def Transport.content (t : Transport α) : List α := (t.fragments.map Subtype.val).flatten

def BufReader.stream (r : BufReader α) : Stream α := ⟨r.buffer ++ r.inner.content, r.inner.ending⟩

theorem Transport.read_cases (t : Transport α) {maximum : Nat} (h : 0 < maximum) :
    (t.content = [] ∧ t.read maximum = (t.ending.read, t)) ∨
    ∃ bytes t', t.read maximum = (.ok bytes, t') ∧ bytes ≠ [] ∧ bytes.length ≤ maximum ∧
      t.content = bytes ++ t'.content ∧ t'.ending = t.ending := by
  obtain ⟨fragments, ending⟩ := t
  cases fragments with
  | nil => exact .inl ⟨rfl, rfl⟩
  | cons f rest =>
    refine .inr ?_
    by_cases hdrop : f.1.drop maximum = []
    · exact ⟨f.1, ⟨rest, ending⟩, by simp only [Transport.read, dif_pos hdrop], f.2,
        List.drop_eq_nil_iff.mp hdrop, rfl, rfl⟩
    · refine ⟨f.1.take maximum, ⟨⟨f.1.drop maximum, hdrop⟩ :: rest, ending⟩,
        by simp only [Transport.read, dif_neg hdrop], ?_, List.length_take_le _ _, ?_, rfl⟩
      · intro hnil
        rw [List.take_eq_nil_iff] at hnil
        exact hnil.elim (fun h0 => Nat.ne_of_gt h h0) f.2
      · show f.1 ++ _ = f.1.take maximum ++ (f.1.drop maximum ++ _)
        rw [← List.append_assoc, List.take_append_drop]

variable {r : BufReader α}

/-- A buffer is filled unless the stream is at its end. -/
theorem fillBuf_cases (r : BufReader α) :
    (r.stream.content = [] ∧ r.fillBuf = (r.stream.ending.read, r)) ∨
    ∃ available r', r.fillBuf = (.ok available, r') ∧ available ≠ [] ∧ r'.buffer = available ∧
      r'.stream = r.stream := by
  obtain ⟨buffer, inner, capacity, positive⟩ := r
  cases buffer with
  | cons a buffer => exact .inr ⟨_, _, rfl, List.cons_ne_nil _ _, rfl, rfl⟩
  | nil =>
    obtain ⟨hcontent, hread⟩ | ⟨bytes, inner', hread, hne, -, hcontent, hending⟩ :=
      inner.read_cases positive
    · refine .inl ⟨hcontent, ?_⟩
      simp only [BufReader.fillBuf, hread, BufReader.stream]
      cases inner.ending <;> rfl
    · refine .inr ⟨bytes, ⟨bytes, inner', capacity, positive⟩, ?_, hne, rfl, ?_⟩
      · simp only [BufReader.fillBuf, hread]
      · simp only [BufReader.stream, hcontent, hending, List.nil_append]

theorem consume_stream {count : Nat} (h : count ≤ r.buffer.length) :
    (r.consume count).stream = r.stream.drop count := by
  simp only [BufReader.stream, BufReader.consume, Stream.drop,
    List.drop_append_of_le_length h]

theorem take_buffer {count : Nat} (h : count ≤ r.buffer.length) :
    r.stream.content.take count = r.buffer.take count :=
  List.take_append_of_le_length h

/-- A read returns something unless the stream is at its end. -/
theorem read_cases (r : BufReader α) {maximum : Nat} (h : 0 < maximum) :
    (r.stream.content = [] ∧ r.read maximum = (r.stream.ending.read, r)) ∨
    ∃ bytes r', r.read maximum = (.ok bytes, r') ∧ bytes ≠ [] ∧ bytes.length ≤ maximum ∧
      r.stream.content = bytes ++ r'.stream.content ∧ r'.stream.ending = r.stream.ending := by
  by_cases hpast : r.buffer = [] ∧ r.capacity ≤ maximum
  · obtain ⟨hcontent, hread⟩ | ⟨bytes, inner, hread, hne, hlength, hcontent, hending⟩ :=
      r.inner.read_cases h
    · refine .inl ⟨by rw [BufReader.stream, hpast.1, hcontent]; rfl, ?_⟩
      simp only [BufReader.read, if_pos hpast, hread, BufReader.stream]
    · refine .inr ⟨bytes, { r with inner := inner }, ?_, hne, hlength, ?_, hending⟩
      · simp only [BufReader.read, if_pos hpast, hread]
      · simp only [BufReader.stream, hpast.1, hcontent, List.nil_append]
  · obtain ⟨hcontent, hfill⟩ | ⟨available, r', hfill, hne, hbuffer, hstream⟩ := fillBuf_cases r
    · refine .inl ⟨hcontent, ?_⟩
      simp only [BufReader.read, if_neg hpast, hfill]
      cases hending : r.stream.ending with
      | closed =>
        simp only [Ending.read, List.take_nil, List.length_nil, Nat.zero_min, BufReader.consume,
          List.drop_zero]
      | unexpectedEof => rfl
      | failed => rfl
    · have hle : min available.length maximum ≤ r'.buffer.length := by
        rw [hbuffer]
        exact Nat.min_le_left _ _
      have htake : available.take maximum = available.take (min available.length maximum) := by
        rw [Nat.min_comm, ← List.take_take, List.take_length]
      refine .inr ⟨available.take maximum, r'.consume (min available.length maximum), ?_, ?_,
        List.length_take_le _ _, ?_, ?_⟩
      · simp only [BufReader.read, if_neg hpast, hfill]
      · intro hnil
        rw [List.take_eq_nil_iff] at hnil
        exact hnil.elim (fun h0 => Nat.ne_of_gt h h0) hne
      · rw [consume_stream hle, ← hstream, htake, ← hbuffer, ← take_buffer (hbuffer ▸ hle)]
        exact (List.take_append_drop _ _).symm
      · rw [consume_stream hle, ← hstream]
        rfl

/-! ## Computations -/

/-- A computation on a reader gives what another one gives on its stream. -/
def Follows (x : Except ε (β × BufReader α)) (y : Except ε (β × Stream α)) : Prop :=
  x.map (Prod.map id BufReader.stream) = y

theorem Follows.ok (b : β) (r : BufReader α) :
    Follows (.ok (b, r) : Except ε _) (.ok (b, r.stream)) := rfl

theorem Follows.error (e : ε) :
    Follows (.error e : Except ε (β × BufReader α)) (.error e) := rfl

theorem Follows.ok_iff {x : Except ε (β × BufReader α)} {y : Except ε (β × Stream α)} {b : β}
    {s : Stream α} (h : Follows x y) : y = .ok (b, s) ↔ ∃ r, x = .ok (b, r) ∧ r.stream = s := by
  subst h
  cases x with
  | error e => exact iff_of_false nofun fun ⟨r, hr, _⟩ => nomatch hr
  | ok p =>
    obtain ⟨b', r⟩ := p
    constructor
    · intro h
      cases h
      exact ⟨r, rfl, rfl⟩
    · rintro ⟨r, hr, rfl⟩
      cases hr
      rfl

theorem Follows.error_iff {x : Except ε (β × BufReader α)} {y : Except ε (β × Stream α)} {e : ε}
    (h : Follows x y) : x = .error e ↔ y = .error e := by
  subst h
  cases x with
  | error e' => exact ⟨fun h => h ▸ rfl, fun h => by cases h; rfl⟩
  | ok p => exact iff_of_false nofun nofun

/-- Two computations that give the same and leave the same stream. -/
def Agree (x x' : Except ε (β × BufReader α)) : Prop :=
  x.map (Prod.map id BufReader.stream) = x'.map (Prod.map id BufReader.stream)

theorem Follows.agree {x x' : Except ε (β × BufReader α)} {y : Except ε (β × Stream α)}
    (h : Follows x y) (h' : Follows x' y) : Agree x x' := h.trans h'.symm

theorem Agree.ok {r r' : BufReader α} (b : β) (h : r.stream = r'.stream) :
    Agree (.ok (b, r) : Except ε _) (.ok (b, r')) := by
  simp only [Agree, Except.map, Prod.map, h]

theorem Agree.refl (x : Except ε (β × BufReader α)) : Agree x x := rfl

/-- What follows two computations that agree may look at the stream only. -/
theorem Agree.then {x x' : Except ε (β × BufReader α)} {f f' : β × BufReader α → Except ε γ}
    (h : Agree x x')
    (hf : ∀ b r r', x = .ok (b, r) → r.stream = r'.stream → f (b, r) = f' (b, r')) :
    (x >>= f) = (x' >>= f') := by
  cases x with
  | error e =>
    cases x' with
    | error e' =>
      cases h
      rfl
    | ok p => cases h
  | ok p =>
    cases x' with
    | error e' => cases h
    | ok p' =>
      obtain ⟨b, r⟩ := p
      obtain ⟨b', r'⟩ := p'
      simp only [Agree, Except.map, Prod.map, id_eq, Except.ok.injEq, Prod.mk.injEq] at h
      obtain ⟨rfl, hstream⟩ := h
      exact hf b r r' rfl hstream

theorem Agree.bind {x x' : Except ε (β × BufReader α)}
    {f f' : β × BufReader α → Except ε (γ × BufReader α)} (h : Agree x x')
    (hf : ∀ b r r', x = .ok (b, r) → r.stream = r'.stream → Agree (f (b, r)) (f' (b, r'))) :
    Agree (x >>= f) (x' >>= f') := by
  unfold Agree
  have hmap (z : Except ε (β × BufReader α)) (g : β × BufReader α → Except ε (γ × BufReader α)) :
      (z >>= g).map (Prod.map id BufReader.stream) =
        z >>= fun p => (g p).map (Prod.map id BufReader.stream) := by
    cases z <;> rfl
  rw [hmap, hmap]
  exact h.then hf

end ByteStream
