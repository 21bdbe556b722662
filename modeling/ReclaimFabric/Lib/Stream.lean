import Mathlib.Algebra.Order.Ring.Int
import Mathlib.Data.List.Induction

/-!
# Byte streams read in pieces, and big-endian numbers

A reader is what is still to come from a connection: pieces of at least one byte, with failures
of the read call in between.

* `toBe`, `ofBe`       a number as a fixed count of bytes, most significant first; the two are
                       inverse to each other;
* `Reader.read`        one call of `Read::read`: at most one piece, at most what fits;
* `Reader.readExact`   `Read::read_exact`, which retries an interrupted call;
* `readExact_split`    what was read, followed by what is left, is what there was;
* `readExact_clean`    without failures the call succeeds just when there are enough bytes.
-/

namespace ReclaimFabric

/-! ## big-endian numbers -/

/-- the last `w` bytes of `n`, most significant first -/
def toBe : Nat → Nat → List UInt8
  | 0, _ => []
  | w + 1, n => toBe w (n / 256) ++ [UInt8.ofNat n]

def ofBe (l : List UInt8) : Nat := l.foldl (fun n b => 256 * n + b.toNat) 0

theorem toBe_length (w n : Nat) : (toBe w n).length = w := by
  induction w generalizing n with
  | zero => rfl
  | succ w ih => simp [toBe, ih]

theorem ofBe_snoc (l : List UInt8) (b : UInt8) : ofBe (l ++ [b]) = 256 * ofBe l + b.toNat := by
  simp [ofBe]

theorem ofBe_toBe {w n : Nat} (h : n < 256 ^ w) : ofBe (toBe w n) = n := by
  induction w generalizing n with
  | zero =>
    rw [pow_zero] at h
    show 0 = n
    omega
  | succ w ih =>
    rw [pow_succ] at h
    have hdiv : n / 256 < 256 ^ w := by omega
    rw [toBe, ofBe_snoc, ih hdiv]
    have hb : (UInt8.ofNat n).toNat = n % 256 := by simp
    omega

theorem toBe_ofBe (l : List UInt8) : toBe l.length (ofBe l) = l := by
  induction l using List.reverseRecOn with
  | nil => rfl
  | append_singleton l b ih =>
    have hb := b.toNat_lt
    have hdiv : ofBe (l ++ [b]) / 256 = ofBe l := by
      rw [ofBe_snoc]
      omega
    have hlast : UInt8.ofNat (ofBe (l ++ [b])) = b := by
      apply UInt8.toNat_inj.mp
      rw [ofBe_snoc]
      simp
    rw [List.length_append, List.length_singleton, toBe, hdiv, hlast, ih]

/-! ## readers -/

inductive IoErrorKind where
  | timedOut
  | wouldBlock
  | interrupted
  | unexpectedEof
  | other
deriving DecidableEq

structure IoError where
  kind : IoErrorKind
  text : String
deriving DecidableEq

/-- what one read call can meet: some bytes, or a failure -/
inductive Piece where
  | data (b : UInt8) (bs : List UInt8)
  | fail (e : IoError)
deriving DecidableEq

abbrev Reader := List Piece

namespace Reader

def ofBytes : List UInt8 → Reader → Reader
  | [], r => r
  | b :: bs, r => .data b bs :: r

/-- the bytes still to come -/
def bytes : Reader → List UInt8
  | [] => []
  | .data b bs :: r => b :: bs ++ bytes r
  | .fail _ :: r => bytes r

/-- no call fails -/
def Clean (r : Reader) : Prop := ∀ e, Piece.fail e ∉ r

/-- `read` with a buffer of `n` bytes; no bytes are the end of the stream -/
def read (n : Nat) : Reader → Except IoError (List UInt8) × Reader
  | [] => (.ok [], [])
  | .data b bs :: r => (.ok ((b :: bs).take n), ofBytes ((b :: bs).drop n) r)
  | .fail e :: r => (.error e, r)

theorem ofBytes_bytes (l : List UInt8) (r : Reader) : (ofBytes l r).bytes = l ++ r.bytes := by
  cases l with
  | nil => rfl
  | cons b bs => rfl

theorem ofBytes_clean {l : List UInt8} {r : Reader} (h : r.Clean) : (ofBytes l r).Clean := by
  cases l with
  | nil => exact h
  | cons b bs =>
    intro e he
    rcases List.mem_cons.mp he with he | he
    · cases he
    · exact h e he

theorem Clean.tail {p : Piece} {r : Reader} (h : Clean (p :: r)) : r.Clean :=
  fun e he => h e (List.mem_cons_of_mem _ he)

theorem clean_nil : Clean [] := fun _ => List.not_mem_nil

/-- what a successful call returns is the front of what was to come -/
theorem read_ok {n : Nat} {r r' : Reader} {l : List UInt8} (h : r.read n = (.ok l, r')) :
    r.bytes = l ++ r'.bytes ∧ l.length ≤ n := by
  cases r with
  | nil =>
    cases h
    simp [bytes]
  | cons p r =>
    cases p with
    | data b bs =>
      cases h
      rw [ofBytes_bytes, ← List.append_assoc, List.take_append_drop]
      exact ⟨rfl, List.length_take_le _ _⟩
    | fail e => cases h

/-- a failed call takes no bytes -/
theorem read_error {n : Nat} {r r' : Reader} {e : IoError} (h : r.read n = (.error e, r')) :
    r'.bytes = r.bytes ∧ r'.length < r.length := by
  cases r with
  | nil => cases h
  | cons p r =>
    cases p with
    | data b bs => cases h
    | fail e' =>
      cases h
      exact ⟨rfl, by simp⟩

/-- without failures a call returns at least one byte, unless the stream is at its end -/
theorem read_clean {n : Nat} {r : Reader} (hn : 0 < n) (hr : r.Clean) :
    ∃ l r', r.read n = (.ok l, r') ∧ r'.Clean ∧ (l = [] → r = []) := by
  cases r with
  | nil => exact ⟨[], [], rfl, clean_nil, fun _ => rfl⟩
  | cons p r =>
    cases p with
    | data b bs =>
      refine ⟨_, _, rfl, ofBytes_clean hr.tail, ?_⟩
      intro h
      have hlen := congrArg List.length h
      rw [List.length_take, List.length_cons, List.length_nil] at hlen
      omega
    | fail e => exact absurd List.mem_cons_self (hr e)

end Reader

/-! ## reading an exact count -/

namespace Reader

/-- `read_exact` with `got` in the buffer already -/
def readExact (n : Nat) (got : List UInt8) (r : Reader) : Except IoError (List UInt8) × Reader :=
  if got.length < n then
    match _h : r.read (n - got.length) with
    | (.error e, r') =>
      if e.kind = .interrupted then readExact n got r' else (.error e, r')
    | (.ok [], r') => (.error ⟨.unexpectedEof, "failed to fill whole buffer"⟩, r')
    | (.ok (b :: bs), r') => readExact n (got ++ b :: bs) r'
  else (.ok got, r)
termination_by (n - got.length, r.length)
decreasing_by
  · exact Prod.Lex.right _ (read_error _h).2
  · apply Prod.Lex.left
    simp only [List.length_append, List.length_cons]
    omega

/-- what was read, followed by what is left, is what there was -/
theorem readExact_split {n : Nat} {got l : List UInt8} {r r' : Reader} (hg : got.length ≤ n)
    (h : r.readExact n got = (.ok l, r')) :
    l.length = n ∧ ∃ new, l = got ++ new ∧ r.bytes = new ++ r'.bytes := by
  fun_induction readExact n got r with
  | case1 got r hlt e r₁ hread hint ih =>
    have := (read_error hread).1
    rw [← this]
    exact ih hg h
  | case2 => cases h
  | case3 => cases h
  | case4 got r hlt b bs r₁ hread ih =>
    obtain ⟨hb, hle⟩ := read_ok hread
    have hlen : (got ++ b :: bs).length ≤ n := by
      rw [List.length_append]
      omega
    obtain ⟨hl, new, hnew, hbytes⟩ := ih hlen h
    refine ⟨hl, b :: bs ++ new, ?_, ?_⟩
    · rw [hnew, List.append_assoc]
    · rw [hb, hbytes, List.append_assoc]
  | case5 got r hge =>
    cases h
    refine ⟨by omega, [], ?_, rfl⟩
    rw [List.append_nil]

/-- without failures the call succeeds when there are enough bytes -/
theorem readExact_clean {n : Nat} {got l rest : List UInt8} {r : Reader} (hr : r.Clean)
    (hb : r.bytes = l ++ rest) (hn : got.length + l.length = n) :
    ∃ r', r.readExact n got = (.ok (got ++ l), r') ∧ r'.Clean ∧ r'.bytes = rest := by
  fun_induction readExact n got r generalizing l with
  | case1 got r hlt e r₁ hread hint ih =>
    obtain ⟨l', r', hl', _⟩ := read_clean (by omega : 0 < n - got.length) hr
    rw [hl'] at hread
    cases hread
  | case2 got r hlt e r₁ hread hint =>
    obtain ⟨l', r', hl', _⟩ := read_clean (by omega : 0 < n - got.length) hr
    rw [hl'] at hread
    cases hread
  | case3 got r hlt r₁ hread =>
    obtain ⟨l', r', hl', _, hend⟩ := read_clean (by omega : 0 < n - got.length) hr
    rw [hread] at hl'
    cases hl'
    rw [hend rfl] at hb
    have := congrArg List.length hb
    simp only [bytes, List.length_nil, List.length_append] at this
    omega
  | case4 got r hlt b bs r₁ hread ih =>
    obtain ⟨l', r', hl', hclean, _⟩ := read_clean (by omega : 0 < n - got.length) hr
    rw [hread] at hl'
    cases hl'
    obtain ⟨hsplit, hle⟩ := read_ok hread
    -- the piece is a front of the bytes that are wanted
    have hlen : (b :: bs).length ≤ l.length := by omega
    obtain ⟨l₁, rfl⟩ : ∃ l₁, l = b :: bs ++ l₁ :=
      (List.prefix_of_prefix_length_le ⟨_, hsplit.symm⟩ ⟨_, hb.symm⟩ hlen).imp fun _ h => h.symm
    rw [hsplit, List.append_assoc] at hb
    rw [List.length_append] at hn
    obtain ⟨r', h₁, h₂, h₃⟩ := ih hclean (List.append_cancel_left hb)
      (by rw [List.length_append]; omega)
    refine ⟨r', ?_, h₂, h₃⟩
    rw [h₁, List.append_assoc]
  | case5 got r hge =>
    obtain rfl : l = [] := List.eq_nil_of_length_eq_zero (by omega)
    exact ⟨r, by rw [List.append_nil], hr, hb⟩

/-- too few bytes end in an error of the kind `unexpectedEof` -/
theorem readExact_short {n : Nat} {got : List UInt8} {r : Reader} (hr : r.Clean)
    (hn : got.length + r.bytes.length < n) :
    ∃ e r', r.readExact n got = (.error e, r') ∧ e.kind = .unexpectedEof := by
  fun_induction readExact n got r with
  | case1 got r hlt e r₁ hread hint ih =>
    obtain ⟨l', r', hl', _⟩ := read_clean (by omega : 0 < n - got.length) hr
    rw [hl'] at hread
    cases hread
  | case2 got r hlt e r₁ hread hint =>
    obtain ⟨l', r', hl', _⟩ := read_clean (by omega : 0 < n - got.length) hr
    rw [hl'] at hread
    cases hread
  | case3 got r hlt r₁ hread => exact ⟨_, _, rfl, rfl⟩
  | case4 got r hlt b bs r₁ hread ih =>
    obtain ⟨l', r', hl', hclean, _⟩ := read_clean (by omega : 0 < n - got.length) hr
    rw [hread] at hl'
    cases hl'
    obtain ⟨hsplit, _⟩ := read_ok hread
    have hlen := congrArg List.length hsplit
    rw [List.length_append] at hlen
    exact ih hclean (by rw [List.length_append]; omega)
  | case5 got r hge => omega

end Reader

end ReclaimFabric
