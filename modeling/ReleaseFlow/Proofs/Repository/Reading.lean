import ReleaseFlow.Proofs.Text.Pieces
import ReleaseFlow.Proofs.Text.Trimmed
import ReleaseFlow.Repository

/-!
# The texts that name a repository

* `Repository.parse_eq_ok_iff_pieces`: the two pieces that a text is read as;
* `Repository.parse_eq_ok_iff`: the texts that are read as a repository;
* `Repository.of_parse_error`: all others end with one failure, which quotes the text;
* `Repository.reads_exactly_pairs`: **an owner and a name around one slash are read, and nothing
  else**.
-/

namespace ReleaseFlow.Repository

variable {s : String} {r : Repository}

theorem parse_eq_ok_iff_pieces : parse s = .ok r ↔
    List.splitOn '/' (Text.trimChars s.toList) = [r.owner.toList, r.name.toList] ∧
      r.owner.toList ≠ [] ∧ r.name.toList ≠ [] := by
  unfold parse
  dsimp only
  split
  · next owner name hpieces =>
    rw [hpieces]
    split
    · next hempty =>
      refine iff_of_false (by simp) ?_
      rintro ⟨heq, howner, hname⟩
      simp only [List.cons.injEq, and_true] at heq
      obtain ⟨rfl, rfl⟩ := heq
      simp [howner, hname] at hempty
    · next hne =>
      simp only [Bool.or_eq_true, decide_eq_true_eq, not_or] at hne
      constructor
      · intro h
        cases h
        simpa using hne
      · rintro ⟨heq, -, -⟩
        simp only [List.cons.injEq, and_true] at heq
        obtain ⟨rfl, rfl⟩ := heq
        simp
  · next hne => exact iff_of_false (by simp) fun h => hne _ _ h.1

theorem parse_eq_ok_iff : parse s = .ok r ↔
    r.owner ≠ "" ∧ r.name ≠ "" ∧ '/' ∉ r.owner.toList ∧ '/' ∉ r.name.toList ∧
      Text.trim s = r.owner ++ "/" ++ r.name := by
  have htext : Text.trim s = r.owner ++ "/" ++ r.name ↔
      Text.trimChars s.toList = r.owner.toList ++ '/' :: r.name.toList := by
    rw [Text.trim, ← String.toList_inj, String.toList_ofList, String.toList_append,
      String.toList_append]
    simp
  rw [parse_eq_ok_iff_pieces, Text.splitOn_eq_pair_iff, htext]
  simp only [ne_eq, String.toList_eq_nil_iff]
  constructor
  · rintro ⟨⟨howner, hname, heq⟩, howner', hname'⟩
    exact ⟨howner', hname', howner, hname, heq⟩
  · rintro ⟨howner', hname', howner, hname, heq⟩
    exact ⟨⟨howner, hname, heq⟩, howner', hname'⟩

/-- All texts that are not read end with the same failure, which quotes the text as it is. -/
theorem of_parse_error {e : Failure} (h : parse s = .error e) :
    e = .environment ("Invalid repository '" ++ s ++ "' - expected owner/repo") := by
  unfold parse at h
  dsimp only at h
  split at h
  · split at h
    · exact (Except.error.inj h).symm
    · cases h
  · exact (Except.error.inj h).symm

theorem text_of_parse (h : parse s = .ok r) : r.text = Text.trim s :=
  (parse_eq_ok_iff.1 h).2.2.2.2.symm

theorem parse_text (h : parse s = .ok r) : parse r.text = .ok r := by
  have htrim : Text.trim r.text = Text.trim s := by
    rw [text_of_parse h, Text.trim, Text.trim, String.toList_ofList,
      Text.trimChars_of_isTrimmed (Text.isTrimmed_trimChars _)]
  rw [parse_eq_ok_iff] at h ⊢
  rwa [htrim]

/-- **An owner and a name around one slash are read, and nothing else.** A text is read as a
repository if and only if, without the blanks around it, it is the owner and the name of the
repository with a slash between them, neither of which is empty or has a slash. All others end with
a failure that quotes the text. So the text of what was read is the text without the blanks, and it
is read as the same repository. -/
theorem reads_exactly_pairs :
    (∀ (s : String) (r : Repository), parse s = .ok r ↔
      r.owner ≠ "" ∧ r.name ≠ "" ∧ '/' ∉ r.owner.toList ∧ '/' ∉ r.name.toList ∧
        Text.trim s = r.owner ++ "/" ++ r.name) ∧
    (∀ s : String, (¬ ∃ r, parse s = .ok r) ↔ parse s =
      .error (.environment ("Invalid repository '" ++ s ++ "' - expected owner/repo"))) ∧
    ∀ (s : String) (r : Repository), parse s = .ok r →
      r.text = Text.trim s ∧ parse r.text = .ok r := by
  refine ⟨fun s r => parse_eq_ok_iff, fun s => ?_, fun s r h => ⟨text_of_parse h, parse_text h⟩⟩
  cases hparse : parse s with
  | ok r => simp
  | error e =>
    obtain rfl := of_parse_error hparse
    simp

/-- Blanks around the text are dropped, blanks beside the slash are not. -/
theorem reads_exactly_pairs_spaced :
    parse "\u3000acme /\tnotify-api\r\n" = .ok ⟨"acme ", "\tnotify-api"⟩ ∧
    Repository.text ⟨"acme ", "\tnotify-api"⟩ = Text.trim "\u3000acme /\tnotify-api\r\n" ∧
    parse (Repository.text ⟨"acme ", "\tnotify-api"⟩) = .ok ⟨"acme ", "\tnotify-api"⟩ := by
  have h : parse "\u3000acme /\tnotify-api\r\n" = .ok ⟨"acme ", "\tnotify-api"⟩ := by decide
  exact ⟨h, reads_exactly_pairs.2.2 _ _ h⟩

end ReleaseFlow.Repository
