import Mathlib.Data.List.Nodup
import Orchestra.RequestId

/-!
# Orchestra.Proofs.Naming.Texts — ids are told apart by their texts

The source, the time and the count of an id vary in length, and the source may hold the very character that stands between
them.  But the suffix always has the same length and the count is all digits, so the count can be read off from the end
(`RequestId.count_of_text`).  Ids of one source are counted, so no two of them have the same text (`RequestIds.run_counted`).
-/

namespace Orchestra

/-- What stands after the last of a character tells what stands before it. -/
theorem eq_of_append_last {α : Type} {a : α} {xs xs' ys ys' : List α} (h : xs ++ a :: ys = xs' ++ a :: ys')
    (hys : a ∉ ys) (hys' : a ∉ ys') : ys = ys' := by
  rcases List.append_eq_append_iff.mp h with ⟨more, -, htail⟩ | ⟨more, -, htail⟩
  · cases more with
    | nil => exact (List.cons.inj htail).2
    | cons b more =>
      rw [(List.cons.inj htail).2] at hys
      exact absurd (List.mem_append_right _ List.mem_cons_self) hys
  · cases more with
    | nil => exact (List.cons.inj htail).2.symm
    | cons b more =>
      rw [(List.cons.inj htail).2] at hys'
      exact absurd (List.mem_append_right _ List.mem_cons_self) hys'

/-- A number is written with digits only. -/
theorem dash_notMem_toString (n : Nat) : '-' ∉ (toString n).toList := by
  intro hmem
  rw [Nat.toString_eq_repr, Nat.toList_repr] at hmem
  exact absurd (Nat.isDigit_of_mem_toDigits (by decide) (Nat.le_refl 10) hmem) (by decide)

/-- A number can be read off its digits. -/
theorem eq_of_toString {m n : Nat} (h : (toString m).toList = (toString n).toList) : m = n := by
  rw [Nat.toString_eq_repr, Nat.toString_eq_repr, Nat.toList_repr, Nat.toList_repr] at h
  calc
    m = Nat.ofDigitChars 10 (Nat.toDigits 10 m) 0 := Nat.ofDigitChars_ten_toDigits.symm
    _ = Nat.ofDigitChars 10 (Nat.toDigits 10 n) 0 := by rw [h]
    _ = n := Nat.ofDigitChars_ten_toDigits

namespace RequestId

/-- How many characters a suffix has. -/
def suffixLength : Nat := 9

variable {r r' : RequestId}

theorem toList_text (r : RequestId) :
    r.text.toList = r.source.toList ++ '-' :: (toString r.millis).toList ++ '-' :: (toString r.count).toList ++
      '-' :: r.suffix.toList := by
  have hdash : "-".toList = ['-'] := rfl
  simp only [text, String.toList_append, hdash, List.append_assoc, List.cons_append, List.nil_append]

/-- **The count can be read off** the text of an id, whatever the source and the time. -/
theorem count_of_text (h : r.text = r'.text) (hlength : r.suffix.length = r'.suffix.length) : r.count = r'.count := by
  have htext := congrArg String.toList h
  rw [toList_text, toList_text] at htext
  have hsuffix : ('-' :: r.suffix.toList).length = ('-' :: r'.suffix.toList).length := by
    rw [List.length_cons, List.length_cons, String.length_toList, String.length_toList, hlength]
  have hcount := eq_of_append_last (List.append_inj' htext hsuffix).1 (dash_notMem_toString _) (dash_notMem_toString _)
  exact eq_of_toString hcount

/-- The texts of counted ids differ. -/
theorem texts_nodup {ids : List RequestId} (hcounts : (ids.map (·.count)).Nodup)
    (hsuffix : ∀ r ∈ ids, r.suffix.length = suffixLength) : (ids.map (·.text)).Nodup := by
  refine List.Nodup.map_on (fun r hr r' hr' htext => ?_) hcounts.of_map
  have hcount := count_of_text htext ((hsuffix r hr).trans (hsuffix r' hr').symm)
  exact List.inj_on_of_nodup_map hcounts hr hr' hcount

/-- No id of the service has the text of one of the assistant. -/
theorem text_ne (h : r.source = RequestIds.service.source) (h' : r'.source = RequestIds.assistant.source) :
    r.text ≠ r'.text := by
  intro htext
  have hlist := congrArg String.toList htext
  have hservice : RequestIds.service.source.toList = ['a', 'i'] := rfl
  have hassistant : RequestIds.assistant.source.toList = ['a', 's', 's', 'i', 's', 't', 'a', 'n', 't'] := rfl
  rw [toList_text, toList_text, h, h', hservice, hassistant] at hlist
  simp at hlist

end RequestId

namespace RequestIds

/-- What one source hands out carries the suffixes that it is given. -/
theorem run_suffix (g : RequestIds) (readings : List (Int × String)) :
    (g.run readings).map (·.suffix) = readings.map (·.2) := by
  induction readings generalizing g with
  | nil => rfl
  | cons reading rest ih => rw [run, List.map_cons, ih, List.map_cons]; rfl

/-- It counts on from where it is. -/
theorem run_count (g : RequestIds) (readings : List (Int × String)) :
    (g.run readings).map (·.count) = List.range' g.issued readings.length := by
  induction readings generalizing g with
  | nil => rfl
  | cons reading rest ih => rw [run, List.map_cons, ih, List.length_cons, List.range'_succ]; rfl

/-- **Ids of one source** are counted from zero, and no two have the same text, whatever is read off the clock. -/
theorem run_counted (source : String) (readings : List (Int × String))
    (hsuffix : ∀ reading ∈ readings, reading.2.length = RequestId.suffixLength) :
    (run ⟨source, 0⟩ readings).map (·.count) = List.range readings.length ∧
      ((run ⟨source, 0⟩ readings).map (·.text)).Nodup := by
  have hcount : (run ⟨source, 0⟩ readings).map (·.count) = List.range readings.length := by
    rw [run_count, List.range_eq_range']
  refine ⟨hcount, RequestId.texts_nodup (hcount ▸ List.nodup_range) fun r hr => ?_⟩
  have hmem : r.suffix ∈ readings.map (·.2) := run_suffix ⟨source, 0⟩ readings ▸ List.mem_map_of_mem hr
  obtain ⟨reading, hreading, heq⟩ := List.mem_map.mp hmem
  exact heq ▸ hsuffix reading hreading

end RequestIds

end Orchestra
