import DocGate.Grammar.Token

/-!
# The scan of parts of a text

A name runs to the last word character in a row (`Token.scanName_eq`), so the first
token of a text that starts with one dollar sign is known (`Token.scan_one_eq`), and a
character that belongs to no token separates the tokens before it from those after it
(`Token.scan_append_separator`).
-/

namespace DocGate

namespace Token

/-- A name takes all word characters in a row, and the scan goes on after
them. -/
theorem scanName_eq (dollars : Nat) (read cs : List Char) :
    scanName dollars read cs =
      ofRun dollars (read.reverse ++ cs.takeWhile Text.isWord) ::
        scan 0 (cs.dropWhile Text.isWord) := by
  induction cs generalizing read with
  | nil => simp [scanName, scan]
  | cons c rest ih =>
    by_cases hword : Text.isWord c = true
    · rw [scanName, if_pos hword, ih, List.takeWhile_cons_of_pos hword,
        List.dropWhile_cons_of_pos hword, List.reverse_cons, List.append_assoc]
      rfl
    · rw [scanName, if_neg hword, List.takeWhile_cons_of_neg hword,
        List.dropWhile_cons_of_neg hword, List.append_nil]
      split
      · rename_i hdollar
        rw [scan, if_pos hdollar]
      · rename_i hdollar
        rw [scan, if_neg hdollar, if_neg (by simp)]

/-- After one dollar sign stands a name, or no token if no word character
follows. -/
theorem scan_one_eq {cs : List Char} (h : cs.head? ≠ some '$') :
    scan 1 cs =
      (if cs.takeWhile Text.isWord = [] then []
        else [.dollar (String.ofList (cs.takeWhile Text.isWord))]) ++
        scan 0 (cs.dropWhile Text.isWord) := by
  cases cs with
  | nil => rfl
  | cons c rest =>
    have hdollar : c ≠ '$' := fun e => h (by rw [e]; rfl)
    by_cases hword : Text.isWord c = true
    · rw [scan, if_neg hdollar, if_pos ⟨Nat.one_pos, hword⟩, scanName_eq,
        List.takeWhile_cons_of_pos hword, List.dropWhile_cons_of_pos hword,
        if_neg (List.cons_ne_nil _ _)]
      rfl
    · rw [scan, if_neg hdollar, if_neg fun hand => hword hand.2,
        List.takeWhile_cons_of_neg hword, List.dropWhile_cons_of_neg hword, if_pos rfl,
        List.nil_append, scan, if_neg hdollar, if_neg (by simp)]

/-- A character that belongs to no token separates the tokens on its sides. -/
theorem scan_append_separator {c : Char} (hword : Text.isWord c = false) (hdollar : c ≠ '$')
    (cs rest : List Char) :
    (∀ dollars, scan dollars (cs ++ c :: rest) = scan dollars cs ++ scan 0 rest) ∧
      ∀ dollars read,
        scanName dollars read (cs ++ c :: rest) = scanName dollars read cs ++ scan 0 rest := by
  have hnot : ¬ Text.isWord c = true := by rw [hword]; exact Bool.false_ne_true
  -- Both scanners in one induction, since each hands over to the other.
  induction cs with
  | nil =>
    refine ⟨fun dollars => ?_, fun dollars read => ?_⟩
    · show scan dollars (c :: rest) = scan 0 rest
      rw [scan, if_neg hdollar, if_neg fun hand => hnot hand.2]
    · show scanName dollars read (c :: rest) = ofRun dollars read.reverse :: scan 0 rest
      rw [scanName, if_neg hnot, if_neg hdollar]
  | cons d cs ih =>
    obtain ⟨ihscan, ihname⟩ := ih
    refine ⟨fun dollars => ?_, fun dollars read => ?_⟩
    · rw [List.cons_append, scan, scan]
      split
      · exact ihscan _
      · split
        · exact ihname _ _
        · exact ihscan _
    · rw [List.cons_append, scanName, scanName]
      split
      · exact ihname _ _
      · split
        · rw [ihscan]
          rfl
        · rw [ihscan]
          rfl

end Token

end DocGate
