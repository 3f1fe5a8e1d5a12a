/-
  A sweep loses nothing but the calls.

  What is swept is taken apart and put together again.

  1. **Cuts** — `Cuts offset cs spans` says that the spans lie in the text one behind the other: the
     text is what is kept in front of the first of them, what that span covers, and a text which
     the later spans cut.  The spans of the scan are such (`cuts_spansFrom`), and everything below is
     by induction on it.

  2. **Bytes** — in UTF-8 the same holds of bytes, and there a span can be read as it is meant: its
     bytes are a slice (`map_text_cut`), and what is left are the bytes outside of all spans
     (`bytesOf_kept_cut`).

  3. **Putting back** — `Sweep.restored` makes a text from the fields of a sweep alone.  Each removal
     goes back to the seam that it left, the last one first, so that the seams of the others stay
     where they are.

  `sweep_loses_nothing` puts them together.
-/
import CallSweep.Proofs.Call.Splitting
import CallSweep.Text.Utf8

namespace CallSweep

open Text (width width_nil width_cons width_append width_toList splitAtByte_width encode
  encode_eq_flatMap)

/-! ## Cuts -/

/-- The spans cut a text that begins at the byte `offset`: they lie one behind the other, and
    their edges lie between characters. -/
inductive Cuts : Nat → List Char → List Span → Prop where
  | none (offset : Nat) (cs : List Char) : Cuts offset cs []
  | span {offset : Nat} {kept gone rest : List Char} {spans : List Span}
      (later : Cuts (offset + width kept + width gone) rest spans) :
      Cuts offset (kept ++ (gone ++ rest))
        (.ofWidth (offset + width kept) (width gone) :: spans)

namespace Cuts

/-- One more character in front that is kept. -/
theorem kept_cons {offset : Nat} {c : Char} {cs : List Char} {spans : List Span}
    (cuts : Cuts (offset + c.utf8Size) cs spans) : Cuts offset (c :: cs) spans := by
  cases cuts with
  | none => exact .none offset (c :: cs)
  | @span _ kept gone rest spans later =>
    rw [Nat.add_assoc offset, ← width_cons] at later ⊢
    exact @span offset (c :: kept) gone rest spans later

/-- No span begins in front of the text. -/
theorem le_start {offset : Nat} {cs : List Char} {spans : List Span} (cuts : Cuts offset cs spans) :
    ∀ s ∈ spans, offset ≤ s.start := by
  induction cuts with
  | none => simp
  | @span offset kept gone rest spans later ih =>
    intro s hs
    rcases List.mem_cons.1 hs with rfl | hs
    · exact Nat.le_add_right offset (width kept)
    · have := ih s hs
      omega

end Cuts

namespace CallPattern

theorem cuts_spansFrom (p : CallPattern) (offset : Nat) (cs : List Char) :
    Cuts offset cs (p.spansFrom offset cs) := by
  induction cs using p.scan_induction generalizing offset with
  | nil =>
    rw [spansFrom_nil]
    exact .none offset []
  | call c cs rest stop hm ih =>
    obtain ⟨taken, htaken, rfl⟩ := exists_taken_of_matchAt hm
    rw [spansFrom_of_match hm, htaken]
    exact @Cuts.span offset [] taken rest _ (ih _)
  | plain c cs hm ih =>
    rw [spansFrom_of_none hm]
    exact (ih _).kept_cons

end CallPattern

/-- Cutting takes out the first span, wherever it lies. -/
theorem cut_kept_append {offset : Nat} {here : Position} {kept gone rest : List Char}
    {spans : List Span} :
    cut offset here (kept ++ (gone ++ rest))
        (.ofWidth (offset + width kept) (width gone) :: spans) =
      (kept ++ (cut (offset + width kept + width gone) ((here.advance kept).advance gone) rest
          spans).1,
        ⟨.ofWidth (offset + width kept) (width gone), here.advance kept, String.ofList gone⟩ ::
          (cut (offset + width kept + width gone) ((here.advance kept).advance gone) rest
            spans).2) := by
  have hstart : (Span.ofWidth (offset + width kept) (width gone)).start - offset = width kept :=
    Nat.add_sub_cancel_left offset (width kept)
  have hlength : (Span.ofWidth (offset + width kept) (width gone)).length = width gone :=
    Nat.add_sub_cancel_left (offset + width kept) (width gone)
  rw [cut, hstart, hlength]
  simp only [splitAtByte_width]
  rfl

theorem map_span_cut (offset : Nat) (here : Position) (cs : List Char) (spans : List Span) :
    (cut offset here cs spans).2.map Removal.span = spans := by
  induction spans generalizing offset here cs with
  | nil => rfl
  | cons s spans ih =>
    rw [cut, List.map_cons, ih]

/-! ## Bytes -/

/-- The bytes of some characters. -/
def bytesOf (cs : List Char) : List UInt8 := cs.flatMap String.utf8EncodeChar

theorem bytesOf_append (as bs : List Char) : bytesOf (as ++ bs) = bytesOf as ++ bytesOf bs :=
  List.flatMap_append

theorem encode_ofList (cs : List Char) : encode (String.ofList cs) = bytesOf cs := by
  rw [encode_eq_flatMap, String.toList_ofList, bytesOf]

theorem length_bytesOf (cs : List Char) : (bytesOf cs).length = width cs := by
  induction cs with
  | nil => rfl
  | cons c cs ih =>
    rw [bytesOf, List.flatMap_cons, List.length_append, String.length_utf8EncodeChar, width_cons]
    exact congrArg (c.utf8Size + ·) ih

/-- The bytes that a span covers. -/
def Span.slice (s : Span) (bytes : List UInt8) : List UInt8 := (bytes.drop s.start).take s.length

/-- The bytes that no span covers, the first of them being at `offset`. -/
def outsideFrom (offset : Nat) (spans : List Span) (bytes : List UInt8) : List UInt8 :=
  ((bytes.zipIdx offset).filter fun (_, i) =>
    spans.all fun s => i < s.start || s.stop ≤ i).map Prod.fst

theorem slice_append {s : Span} {front piece behind : List UInt8} (hstart : s.start = front.length)
    (hlength : s.length = piece.length) : s.slice (front ++ (piece ++ behind)) = piece := by
  rw [Span.slice, hstart, hlength, List.drop_left, List.take_left]

theorem outsideFrom_append (offset : Nat) (spans : List Span) (as bs : List UInt8) :
    outsideFrom offset spans (as ++ bs) =
      outsideFrom offset spans as ++ outsideFrom (offset + as.length) spans bs := by
  simp only [outsideFrom, List.zipIdx_append, List.filter_append, List.map_append]

/-- Bytes that all lie outside stay as they are. -/
theorem outsideFrom_eq_self {offset : Nat} {spans : List Span} {bytes : List UInt8}
    (out : ∀ i, offset ≤ i → i < offset + bytes.length → ∀ s ∈ spans, i < s.start ∨ s.stop ≤ i) :
    outsideFrom offset spans bytes = bytes := by
  have all_pass : (bytes.zipIdx offset).filter
      (fun (_, i) => spans.all fun s => i < s.start || s.stop ≤ i) = bytes.zipIdx offset := by
    rw [List.filter_eq_self]
    rintro ⟨b, i⟩ hmem
    obtain ⟨hlo, hhi, -⟩ := List.mem_zipIdx hmem
    simpa using out i hlo hhi
  rw [outsideFrom, all_pass, List.zipIdx_map_fst]

/-- Of bytes that one span covers nothing is left. -/
theorem outsideFrom_eq_nil {offset : Nat} {spans : List Span} {bytes : List UInt8} {s : Span}
    (hs : s ∈ spans) (hstart : s.start ≤ offset) (hstop : offset + bytes.length ≤ s.stop) :
    outsideFrom offset spans bytes = [] := by
  rw [outsideFrom, List.map_eq_nil_iff, List.filter_eq_nil_iff]
  rintro ⟨b, i⟩ hmem
  obtain ⟨hlo, hhi, -⟩ := List.mem_zipIdx hmem
  intro hout
  have := List.all_eq_true.1 hout s hs
  simp only [Bool.or_eq_true, decide_eq_true_eq] at this
  omega

/-- A span in front of the bytes covers none of them. -/
theorem outsideFrom_cons {offset : Nat} {spans : List Span} {bytes : List UInt8} {s : Span}
    (hstop : s.stop ≤ offset) : outsideFrom offset (s :: spans) bytes =
      outsideFrom offset spans bytes := by
  rw [outsideFrom, outsideFrom]
  congr 1
  apply List.filter_congr
  rintro ⟨b, i⟩ hmem
  obtain ⟨hlo, -, -⟩ := List.mem_zipIdx hmem
  have : s.stop ≤ i := Nat.le_trans hstop hlo
  simp [this]

namespace Cuts

variable {offset : Nat} {cs : List Char} {spans : List Span}

/-- Each removal has the text that its span covers, counted from the head of a longer text. -/
theorem map_text_cut (cuts : Cuts offset cs spans) (here : Position) {front : List UInt8}
    (hfront : front.length = offset) :
    (cut offset here cs spans).2.map (fun r => encode r.text) =
      spans.map (Span.slice · (front ++ bytesOf cs)) := by
  induction cuts generalizing here front with
  | none => rfl
  | @span offset kept gone rest spans later ih =>
    have whole : front ++ bytesOf (kept ++ (gone ++ rest)) =
        (front ++ bytesOf kept) ++ (bytesOf gone ++ bytesOf rest) := by
      rw [bytesOf_append, bytesOf_append, List.append_assoc]
    have hbefore : (front ++ bytesOf kept).length = offset + width kept := by
      rw [List.length_append, length_bytesOf, hfront]
    rw [cut_kept_append, List.map_cons, List.map_cons, whole, encode_ofList]
    congr 1
    · refine (slice_append hbefore.symm ?_).symm
      rw [length_bytesOf]
      exact Nat.add_sub_cancel_left _ _
    · rw [← List.append_assoc]
      apply ih
      rw [List.length_append, hbefore, length_bytesOf]

/-- What is kept are the bytes outside of all spans. -/
theorem bytesOf_kept_cut (cuts : Cuts offset cs spans) (here : Position) :
    bytesOf (cut offset here cs spans).1 = outsideFrom offset spans (bytesOf cs) := by
  induction cuts generalizing here with
  | none =>
    refine (outsideFrom_eq_self ?_).symm
    simp
  | @span offset kept gone rest spans later ih =>
    have kept_stay : outsideFrom offset (.ofWidth (offset + width kept) (width gone) :: spans)
        (bytesOf kept) = bytesOf kept := by
      apply outsideFrom_eq_self
      intro i hlo hhi s hs
      rw [length_bytesOf] at hhi
      refine Or.inl (Nat.lt_of_lt_of_le hhi ?_)
      rcases List.mem_cons.1 hs with rfl | hs
      · exact Nat.le_refl _
      · exact Nat.le_trans (Nat.le_add_right _ _) (later.le_start s hs)
    have gone_go : outsideFrom (offset + (bytesOf kept).length)
        (.ofWidth (offset + width kept) (width gone) :: spans) (bytesOf gone) = [] := by
      apply outsideFrom_eq_nil List.mem_cons_self
      · rw [length_bytesOf]
        exact Nat.le_refl _
      · rw [length_bytesOf, length_bytesOf]
        exact Nat.le_refl _
    have behind : outsideFrom (offset + (bytesOf kept).length + (bytesOf gone).length)
        (.ofWidth (offset + width kept) (width gone) :: spans) (bytesOf rest) =
          outsideFrom (offset + width kept + width gone) spans (bytesOf rest) := by
      rw [length_bytesOf, length_bytesOf]
      exact outsideFrom_cons (Nat.le_refl _)
    rw [cut_kept_append, bytesOf_append, bytesOf_append, bytesOf_append, outsideFrom_append,
      outsideFrom_append, kept_stay, gone_go, behind, List.nil_append, ih]

theorem width_kept_cut (cuts : Cuts offset cs spans) (here : Position) :
    width (cut offset here cs spans).1 + (spans.map Span.length).sum = width cs := by
  induction cuts generalizing here with
  | none => rfl
  | @span offset kept gone rest spans later ih =>
    have hlength : (Span.ofWidth (offset + width kept) (width gone)).length = width gone :=
      Nat.add_sub_cancel_left _ _
    have := ih ((here.advance kept).advance gone)
    rw [cut_kept_append, List.map_cons, List.sum_cons, hlength, width_append, width_append,
      width_append]
    omega

end Cuts

/-! ## Putting back -/

/-- Some bytes with a piece put in at a place. -/
def insertAt (place : Nat) (piece bytes : List UInt8) : List UInt8 :=
  bytes.take place ++ (piece ++ bytes.drop place)

theorem insertAt_length (front piece behind : List UInt8) :
    insertAt front.length piece (front ++ behind) = front ++ (piece ++ behind) := by
  rw [insertAt, List.take_left, List.drop_left]

/-- Some bytes with every removal put back at its seam, the last one first. -/
def putBack (bytes : List UInt8) (removals : List (Removal × Nat)) : List UInt8 :=
  removals.foldr (fun (r, seam) bytes => insertAt seam (encode r.text) bytes) bytes

/-- What a sweep was made from, as far as its own fields tell. -/
def Sweep.restored (s : Sweep) : List UInt8 :=
  putBack (encode s.modified) (s.removals.zip (seamsOf 0 (s.removals.map Removal.span)))

/-- **Putting back undoes cutting.**  `front` stands for what is in front of the text by then, which
    is shorter than `offset` by the bytes that were removed from it. -/
theorem Cuts.putBack_cut {offset removed : Nat} {cs : List Char} {spans : List Span}
    (cuts : Cuts offset cs spans) (here : Position) {front : List UInt8}
    (hfront : front.length + removed = offset) :
    putBack (front ++ bytesOf (cut offset here cs spans).1)
        ((cut offset here cs spans).2.zip (seamsOf removed spans)) =
      front ++ bytesOf cs := by
  induction cuts generalizing here removed front with
  | none => rfl
  | @span offset kept gone rest spans later ih =>
    have hlength : (Span.ofWidth (offset + width kept) (width gone)).length = width gone :=
      Nat.add_sub_cancel_left _ _
    have hseam : (Span.ofWidth (offset + width kept) (width gone)).start - removed =
        (front ++ bytesOf kept).length := by
      rw [List.length_append, length_bytesOf, ← hfront]
      show front.length + removed + width kept - removed = _
      omega
    have hnext : (front ++ bytesOf kept).length + (removed + width gone) =
        offset + width kept + width gone := by
      rw [List.length_append, length_bytesOf]
      omega
    have later_back := ih ((here.advance kept).advance gone) hnext
    rw [cut_kept_append, seamsOf, hseam, hlength, bytesOf_append, bytesOf_append, bytesOf_append,
      ← List.append_assoc, ← List.append_assoc front, List.zip_cons_cons, putBack, List.foldr_cons]
    show insertAt _ (encode (String.ofList gone)) (putBack _ _) = _
    rw [later_back, encode_ofList, insertAt_length]

namespace CallPattern

/-- **A sweep loses nothing but the calls.**  Its removals stand at the spans that were found and
    have the bytes there; what is left are the bytes outside of them; the text can be restored from
    both; no byte is counted twice or left out; and only what has no call is left as it was. -/
theorem sweep_loses_nothing (p : CallPattern) (text : String) :
    (p.sweep text).removals.map Removal.span = p.spans text ∧
      (p.sweep text).removals.map (fun r => encode r.text) =
        (p.spans text).map (Span.slice · (encode text)) ∧
      encode (p.sweep text).modified = outsideFrom 0 (p.spans text) (encode text) ∧
      (p.sweep text).restored = encode text ∧
      (p.sweep text).modified.utf8ByteSize + ((p.spans text).map Span.length).sum =
        text.utf8ByteSize ∧
      ((p.sweep text).isUnchanged = true ↔ (p.sweep text).modified = text) := by
  have cuts : Cuts 0 text.toList (p.spans text) := p.cuts_spansFrom 0 text.toList
  have no_front : ([] : List UInt8).length = 0 := rfl
  have none_removed : ([] : List UInt8).length + 0 = 0 := rfl
  have hbytes : encode text = bytesOf text.toList := encode_eq_flatMap text
  have hmodified : (p.sweep text).modified =
      String.ofList (cut 0 .start text.toList (p.spans text)).1 := rfl
  have hremovals : (p.sweep text).removals =
      (cut 0 .start text.toList (p.spans text)).2 := rfl
  have hspans : (p.sweep text).removals.map Removal.span = p.spans text := by
    rw [hremovals, map_span_cut]
  refine ⟨hspans, ?_, ?_, ?_, ?_, (p.modified_eq_self_iff text).symm⟩
  · rw [hremovals, hbytes]
    exact cuts.map_text_cut .start no_front
  · rw [hmodified, encode_ofList, hbytes]
    exact cuts.bytesOf_kept_cut .start
  · rw [Sweep.restored, hspans, hremovals, hmodified, encode_ofList, hbytes]
    exact cuts.putBack_cut .start none_removed
  · rw [hmodified, ← width_toList, ← width_toList, String.toList_ofList]
    exact cuts.width_kept_cut .start

end CallPattern

end CallSweep
