import TermuxX11.Lib.Bytes

/-!
# Reading framed messages from a stream socket

A `Socket` is the receiving end of a byte stream: the bytes that have arrived and are
unread, and the portions still to arrive.  One more portion arrives before every read
call, and a read that finds nothing waits for the next nonempty portion; so the list of
portions runs over every segmentation of the stream.

A `Reader` is a callback on such a socket that reads a header of fixed size with one
call and, if the header came whole, dispatches on it; what the dispatch reads and
produces is left open.  `callback` is one invocation with its `again` loop, `serve` the
invocations as long as anything is left, and `iterate` the same iterations in one loop
(`serve_eq_iterate`), which `segments` cuts the stream along.  If every produced message costs at least its `size` in bytes,
then so does the whole run (`iterate_size_le`): messages that were lost cannot be made
up for.
-/

namespace Framing

open ByteCoding

/-! ### The socket -/

/-- The receiving end of a byte stream. -/
structure Socket where
  pending : Bytes
  arrivals : List Bytes

/-- Let the next portion arrive; an empty socket waits for a nonempty one. -/
def fill : Bytes → List Bytes → Socket
  | p, [] => ⟨p, []⟩
  | p, a :: as => if (p ++ a).isEmpty then fill [] as else ⟨p ++ a, as⟩

namespace Socket

/-- A socket on which the whole stream is available. -/
def available (bs : Bytes) : Socket := ⟨bs, []⟩

/-- Everything that is still to be read. -/
def total (s : Socket) : Bytes := s.pending ++ s.arrivals.flatten

/-- `read(fd, buf, k)`: at most `k` bytes, and only what has arrived. -/
def read (k : ℕ) (s : Socket) : Bytes × Socket :=
  if k = 0 then ([], s)
  else
    let s' := fill s.pending s.arrivals
    (s'.pending.take k, ⟨s'.pending.drop k, s'.arrivals⟩)

end Socket

theorem total_fill (p : Bytes) (as : List Bytes) : (fill p as).total = p ++ as.flatten := by
  induction as generalizing p with
  | nil => rfl
  | cons a as ih =>
    rw [fill]
    split_ifs with h
    · have hpa : p = [] ∧ a = [] := by simpa using h
      rw [ih, hpa.1, hpa.2]
      simp
    · simp [Socket.total]

theorem fill_pending_eq_nil {p : Bytes} {as : List Bytes} (h : (fill p as).pending = []) :
    p ++ as.flatten = [] := by
  induction as generalizing p with
  | nil => simpa [fill] using h
  | cons a as ih =>
    rw [fill] at h
    split_ifs at h with hpa
    · have hpa' : p = [] ∧ a = [] := by simpa using hpa
      simpa [hpa'.1, hpa'.2] using ih h
    · exact absurd h (by simpa using hpa)

namespace Socket

@[simp] theorem total_available (bs : Bytes) : (available bs).total = bs := by
  simp [available, total]

/-- A read splits what is left of the stream. -/
theorem read_append (k : ℕ) (s : Socket) : (s.read k).1 ++ (s.read k).2.total = s.total := by
  unfold read
  split_ifs with h
  · rfl
  · have ht := total_fill s.pending s.arrivals
    simp only [total, ← List.append_assoc, List.take_append_drop]
    exact ht

theorem length_read_le (k : ℕ) (s : Socket) : (s.read k).1.length ≤ k := by
  unfold read
  split_ifs with h
  · simp
  · simp only [List.length_take]
    omega

/-- A read returns nothing only at the end of the stream. -/
theorem read_ne_nil {k : ℕ} {s : Socket} (hk : 0 < k) (hs : s.total ≠ []) :
    (s.read k).1 ≠ [] := by
  intro h
  have hk0 : k ≠ 0 := by omega
  rw [read, if_neg hk0, List.take_eq_nil_iff] at h
  exact hs (fill_pending_eq_nil (h.resolve_left hk0))

theorem length_total_read (k : ℕ) (s : Socket) :
    (s.read k).1.length + (s.read k).2.total.length = s.total.length := by
  rw [← List.length_append, read_append]

/-- With the whole stream available, a read of `k` bytes returns the first `k`. -/
theorem read_available (k : ℕ) (bs : Bytes) :
    (available bs).read k = (bs.take k, available (bs.drop k)) := by
  unfold read
  split_ifs with h
  · simp [h]
  · rfl

end Socket

/-! ### Readers -/

/-- A callback that reads one header of `headerSize` bytes and, if it came whole,
dispatches on it.  `again` decides after an iteration (told whether the header was
whole) if the same invocation goes round once more. -/
structure Reader (M : Type) where
  headerSize : ℕ
  headerSize_pos : 0 < headerSize
  dispatch : Bytes → Socket → List M × Socket
  dispatch_total : ∀ h s, (dispatch h s).2.total.length ≤ s.total.length
  again : Bool → Socket → Bool
  again_total : ∀ b s, again b s = true → s.total ≠ []

variable {M : Type}

namespace Reader

variable (R : Reader M)

/-- Was the header read whole? -/
def whole (s : Socket) : Bool := (s.read R.headerSize).1.length = R.headerSize

/-- One header with what its dispatch produces. -/
def iteration (s : Socket) : List M × Socket :=
  let r := s.read R.headerSize
  if R.whole s then R.dispatch r.1 r.2 else ([], r.2)

/-- One invocation of the callback, on `fuel` iterations at most. -/
def callback : ℕ → Socket → List M × Socket
  | 0, s => ([], s)
  | fuel + 1, s =>
    let r := R.iteration s
    if R.again (R.whole s) r.2 then
      let r' := callback fuel r.2
      (r.1 ++ r'.1, r'.2)
    else r

/-- The callback is invoked as long as there is anything to read. -/
def serve : ℕ → Socket → List M × Socket
  | 0, s => ([], s)
  | fuel + 1, s =>
    if s.total.isEmpty then ([], s)
    else
      let r := R.callback s.total.length s
      let r' := serve fuel r.2
      (r.1 ++ r'.1, r'.2)

/-- The iterations of `serve` in one loop. -/
def iterate : ℕ → Socket → List M × Socket
  | 0, s => ([], s)
  | fuel + 1, s =>
    if s.total.isEmpty then ([], s)
    else
      let r := R.iteration s
      let r' := iterate fuel r.2
      (r.1 ++ r'.1, r'.2)

/-- The segments of the stream that the successive iterations consume, each with what
the iteration produced from it. -/
def segments : ℕ → Socket → List (Bytes × List M)
  | 0, _ => []
  | fuel + 1, s =>
    if s.total.isEmpty then []
    else
      let r := R.iteration s
      (s.total.take (s.total.length - r.2.total.length), r.1) :: segments fuel r.2

/-! ### Progress and fuel -/

/-- An iteration on a stream that is not at its end consumes something. -/
theorem iteration_lt {s : Socket} (hs : s.total ≠ []) :
    (R.iteration s).2.total.length < s.total.length := by
  have hne := Socket.read_ne_nil R.headerSize_pos hs
  have hlen := Socket.length_total_read R.headerSize s
  have hpos := List.length_pos_of_ne_nil hne
  unfold iteration
  split_ifs with h
  · have := R.dispatch_total (s.read R.headerSize).1 (s.read R.headerSize).2
    simp only
    omega
  · simp only
    omega

theorem iterate_nil {s : Socket} (hs : s.total = []) (fuel : ℕ) :
    R.iterate fuel s = ([], s) := by
  cases fuel with
  | zero => rfl
  | succ fuel => simp [iterate, hs]

theorem iterate_succ {s : Socket} (hs : s.total ≠ []) (fuel : ℕ) :
    R.iterate (fuel + 1) s =
      ((R.iteration s).1 ++ (R.iterate fuel (R.iteration s).2).1,
        (R.iterate fuel (R.iteration s).2).2) := by
  rw [iterate, if_neg (by simpa using hs)]

theorem segments_succ {s : Socket} (hs : s.total ≠ []) (fuel : ℕ) :
    R.segments (fuel + 1) s =
      (s.total.take (s.total.length - (R.iteration s).2.total.length), (R.iteration s).1) ::
        R.segments fuel (R.iteration s).2 := by
  rw [segments, if_neg (by simpa using hs)]

/-- A run produces what its segments produce. -/
theorem iterate_eq_flatMap (fuel : ℕ) (s : Socket) :
    (R.iterate fuel s).1 = (R.segments fuel s).flatMap Prod.snd := by
  induction fuel generalizing s with
  | zero => rfl
  | succ fuel ih =>
    by_cases hs : s.total = []
    · simp [R.iterate_nil hs, segments, hs]
    · rw [R.iterate_succ hs, R.segments_succ hs, List.flatMap_cons, ih]

/-- Any fuel from the number of unread bytes on gives the same run. -/
theorem iterate_fuel {s : Socket} {m n : ℕ} (hm : s.total.length ≤ m) (hn : s.total.length ≤ n) :
    R.iterate m s = R.iterate n s := by
  induction m generalizing s n with
  | zero =>
    have hs : s.total = [] := List.length_eq_zero_iff.1 (by omega)
    rw [R.iterate_nil hs, R.iterate_nil hs]
  | succ m ih =>
    by_cases hs : s.total = []
    · rw [R.iterate_nil hs, R.iterate_nil hs]
    · obtain ⟨n, rfl⟩ : ∃ k, n = k + 1 :=
        ⟨n - 1, by have := List.length_pos_of_ne_nil hs; omega⟩
      have hlt := R.iteration_lt hs
      rw [R.iterate_succ hs, R.iterate_succ hs,
        ih (s := (R.iteration s).2) (n := n) (by omega) (by omega)]

/-- An invocation consumes something, and the iterations it makes are those of `iterate`. -/
theorem callback_spec {s : Socket} (hs : s.total ≠ []) {m : ℕ} (hm : s.total.length ≤ m) :
    (R.callback m s).2.total.length < s.total.length ∧
      R.iterate m s =
        ((R.callback m s).1 ++ (R.iterate m (R.callback m s).2).1,
          (R.iterate m (R.callback m s).2).2) := by
  induction m generalizing s with
  | zero => exact absurd (List.length_eq_zero_iff.1 (by omega)) hs
  | succ m ih =>
    have hlt := R.iteration_lt hs
    rw [callback]
    split_ifs with ha
    · have hs' := R.again_total _ _ ha
      obtain ⟨h1, h2⟩ := ih hs' (by omega)
      refine ⟨by simp only; omega, ?_⟩
      rw [R.iterate_succ hs, h2]
      simp only [List.append_assoc]
      rw [R.iterate_fuel (n := m + 1) (by omega) (by omega)]
    · refine ⟨hlt, ?_⟩
      rw [R.iterate_succ hs]
      rw [R.iterate_fuel (n := m + 1) (by omega) (by omega)]

/-- Invoking the callback while anything is left is the same as one loop of iterations. -/
theorem serve_eq_iterate {s : Socket} {m : ℕ} (hm : s.total.length ≤ m) :
    R.serve m s = R.iterate m s := by
  induction m generalizing s with
  | zero => rfl
  | succ m ih =>
    by_cases hs : s.total = []
    · simp [serve, R.iterate_nil hs, hs]
    · obtain ⟨h1, h2⟩ := R.callback_spec hs le_rfl
      rw [serve, if_neg (by simpa using hs), R.iterate_fuel hm le_rfl, h2]
      simp only
      rw [ih (by omega), R.iterate_fuel (n := s.total.length) (by omega) (by omega)]

/-! ### Bytes bound messages -/

/-- Every message a dispatch produces is paid for in bytes: its `size` is covered by the
header and what the dispatch has read. -/
def Sized (size : M → ℕ) : Prop :=
  ∀ h s, h.length = R.headerSize →
    ((R.dispatch h s).1.map size).sum + (R.dispatch h s).2.total.length ≤
      R.headerSize + s.total.length

variable {R} {size : M → ℕ}

theorem iteration_size_le (hR : R.Sized size) (s : Socket) :
    ((R.iteration s).1.map size).sum + (R.iteration s).2.total.length ≤ s.total.length := by
  have hlen := Socket.length_total_read R.headerSize s
  unfold iteration
  split_ifs with h
  · have hh : (s.read R.headerSize).1.length = R.headerSize := by simpa [whole] using h
    have := hR _ (s.read R.headerSize).2 hh
    simp only
    omega
  · simp only [List.map_nil, List.sum_nil]
    omega

/-- The messages of a run are not larger than the stream. -/
theorem iterate_size_le (hR : R.Sized size) (fuel : ℕ) (s : Socket) :
    ((R.iterate fuel s).1.map size).sum + (R.iterate fuel s).2.total.length ≤
      s.total.length := by
  induction fuel generalizing s with
  | zero => simp [iterate]
  | succ fuel ih =>
    by_cases hs : s.total = []
    · simp [R.iterate_nil hs]
    · have h1 := iteration_size_le hR s
      have h2 := ih (R.iteration s).2
      rw [R.iterate_succ hs]
      simp only [List.map_append, List.sum_append]
      omega

/-- A run with enough fuel reads the stream to its end. -/
theorem iterate_total (fuel : ℕ) {s : Socket} (h : s.total.length ≤ fuel) :
    (R.iterate fuel s).2.total = [] := by
  induction fuel generalizing s with
  | zero => exact List.length_eq_zero_iff.1 (by simpa [iterate] using h)
  | succ fuel ih =>
    by_cases hs : s.total = []
    · rwa [R.iterate_nil hs]
    · have := R.iteration_lt hs
      rw [R.iterate_succ hs]
      exact ih (by omega)

end Reader

end Framing
