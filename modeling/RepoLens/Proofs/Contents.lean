import Mathlib.Tactic
import RepoLens.Proofs.Opening
import RepoLens.Proofs.Lines
import RepoLens.Proofs.Run
/-!
File contents, from what git prints to what the caller gets and what the program prints. On the way every line end becomes
a newline, the last line is closed, one final newline is taken off, and on the screen terminal sequences are taken out and
one newline is added.

Results:
- `unifyNewlines_eq`: first every CR LF and then every CR that is left becomes a newline;
- `chopNewline_closeLines`: closing the last line and taking one newline off leaves no trace of the former;
- `stripped_iff`: what is echoed is the text with its terminal sequences taken out, from left to right;
- `runWords_contents`: a command line that asks for a file comes to an end without a fault and prints it;
- `contents_reproduced`: what the caller gets and what is printed, for every text that git prints.
-/
namespace RepoLens

/-! ## Line ends -/

namespace Text

def replaceCrLf : Text → Text
  | [] => []
  | '\r' :: '\n' :: r => '\n' :: replaceCrLf r
  | c :: r => c :: replaceCrLf r

def replaceCr (t : Text) : Text := t.map fun c => if c = '\r' then '\n' else c

theorem unifyNewlines_eq (t : Text) : unifyNewlines t = replaceCr (replaceCrLf t) := by
  fun_induction unifyNewlines t with
  | case1 => rfl
  | case2 r ih => simp [replaceCrLf, replaceCr, ih]
  | case3 r hlf ih =>
    have hkeep : replaceCrLf ('\r' :: r) = '\r' :: replaceCrLf r := by
      cases r with
      | nil => rfl
      | cons d r => rw [replaceCrLf]; exact fun r' _ h => hlf r' h
    rw [hkeep, ih]
    simp [replaceCr]
  | case4 c r hcrlf hcr ih =>
    have hkeep : replaceCrLf (c :: r) = c :: replaceCrLf r := by
      rw [replaceCrLf]
      exact hcrlf
    have hc : c ≠ '\r' := hcr
    rw [hkeep, ih]
    simp [replaceCr, hc]

/-- the second text is the first one without its final newline, if it has one -/
def Chopped (t u : Text) : Prop := t = u ++ ['\n'] ∨ u = t ∧ t.getLast? ≠ some '\n'

theorem chopNewline_concat (t : Text) : chopNewline (t ++ ['\n']) = t := by
  simp [chopNewline]

theorem closed_or_open (t : Text) : (∃ u, t = u ++ ['\n']) ∨ t.getLast? ≠ some '\n' := by
  by_cases h : t.getLast? = some '\n'
  · obtain ⟨u, rfl⟩ := List.getLast?_eq_some_iff.1 h
    exact Or.inl ⟨u, rfl⟩
  · exact Or.inr h

theorem chopped_chopNewline (t : Text) : Chopped t (chopNewline t) := by
  rcases closed_or_open t with ⟨u, rfl⟩ | h
  · rw [chopNewline_concat]
    exact Or.inl rfl
  · rw [chopNewline_of_open h]
    exact Or.inr ⟨rfl, h⟩

/-- a newline that closes the last line is the one that is taken off -/
theorem chopNewline_closeLines (t : Text) : chopNewline (closeLines t) = chopNewline t := by
  rcases closed_or_open t with ⟨u, rfl⟩ | h
  · have hclosed : closeLines (u ++ ['\n']) = u ++ ['\n'] := by simp [closeLines]
    rw [hclosed]
  · rw [chopNewline_of_open h]
    cases hlast : t.getLast? with
    | none => rw [List.getLast?_eq_none_iff.1 hlast]; rfl
    | some c =>
      have hc : c ≠ '\n' := fun hc => h (by rw [hlast, hc])
      have hclosed : closeLines t = t ++ ['\n'] := by simp [closeLines, hlast, hc]
      rw [hclosed, chopNewline_concat]

end Text

/-! ## Terminal sequences -/

namespace Cli

/-- what may stand between the bracket and the letter of a terminal sequence -/
def isParameter (c : Char) : Bool := c = ';' || c = '?' || c.isDigit

/-- an escape character, a bracket, parameters, and a letter -/
def IsSequence (q : Text) : Prop :=
  ∃ ps c, q = '\x1b' :: '[' :: (ps ++ [c]) ∧ (∀ x ∈ ps, isParameter x = true) ∧ c.isAlpha = true

/-- a text, and what is left of it when its terminal sequences are taken out from left to right -/
inductive Stripped : Text → Text → Prop where
  | nil : Stripped [] []
  | sequence {q r u : Text} (hq : IsSequence q) (hr : Stripped r u) : Stripped (q ++ r) u
  | char {c : Char} {r u : Text} (hc : ∀ q s, IsSequence q → c :: r ≠ q ++ s) (hr : Stripped r u) :
    Stripped (c :: r) (c :: u)

def SequenceFree (t : Text) : Prop := ∀ a q b, IsSequence q → t ≠ a ++ (q ++ b)

theorem isAlpha_of_isParameter {c : Char} (h : isParameter c = true) : c.isAlpha = false := by
  simp only [isParameter, Bool.or_eq_true, decide_eq_true_eq] at h
  rcases h with (rfl | rfl) | h
  · rfl
  · rfl
  · have hdigits : ∀ n, '0'.toNat ≤ n → n ≤ '9'.toNat → (Char.ofNat n).isAlpha = false := by
      intro n hlow hhigh
      simp only [Char.reduceToNat] at hlow hhigh
      interval_cases n <;> rfl
    obtain ⟨hlow, hhigh⟩ := Char.isDigit_iff_toNat.1 h
    have hfalse := hdigits c.toNat hlow hhigh
    rwa [Char.ofNat_toNat] at hfalse

theorem afterSequence_eq_some {t rest : Text} :
    afterSequence t = some rest ↔ ∃ ps c, t = ps ++ c :: rest ∧ (∀ x ∈ ps, isParameter x = true) ∧ c.isAlpha = true := by
  induction t with
  | nil => simp [afterSequence]
  | cons c r ih =>
    constructor
    · intro h
      simp only [afterSequence] at h
      split_ifs at h with ha hp
      · rw [← Option.some.inj h]
        exact ⟨[], c, rfl, by simp, ha⟩
      · obtain ⟨ps, d, hr, hps, hd⟩ := ih.1 h
        refine ⟨c :: ps, d, by rw [hr]; rfl, ?_, hd⟩
        intro x hx
        rcases List.mem_cons.1 hx with rfl | hx
        · exact hp
        · exact hps x hx
    · rintro ⟨ps, d, ht, hps, hd⟩
      cases ps with
      | nil =>
        simp only [List.nil_append, List.cons.injEq] at ht
        obtain ⟨rfl, rfl⟩ := ht
        simp [afterSequence, hd]
      | cons x ps =>
        simp only [List.cons_append, List.cons.injEq] at ht
        obtain ⟨rfl, rfl⟩ := ht
        have hx := hps c List.mem_cons_self
        have hrest := ih.2 ⟨ps, d, rfl, fun y hy => hps y (List.mem_cons_of_mem c hy), hd⟩
        rw [afterSequence, isAlpha_of_isParameter hx, hrest]
        simp only [isParameter] at hx
        simp [hx]

theorem withoutSequences_skip (u r : Text) : withoutSequences u.length (u ++ r) = withoutSequences 0 r := by
  induction u with
  | nil => rfl
  | cons c u ih => simpa [withoutSequences] using ih

/-- a terminal sequence at the start is taken out -/
theorem withoutSequences_sequence {q : Text} (hq : IsSequence q) (r : Text) :
    withoutSequences 0 (q ++ r) = withoutSequences 0 r := by
  obtain ⟨ps, c, rfl, hps, hc⟩ := hq
  have hafter : afterSequence (ps ++ c :: r) = some r := afterSequence_eq_some.2 ⟨ps, c, rfl, hps, hc⟩
  have hlen : (ps ++ c :: r).length + 1 - r.length = ('[' :: (ps ++ [c])).length := by simp; omega
  have hskip := withoutSequences_skip ('[' :: (ps ++ [c])) r
  simp only [List.cons_append, List.append_assoc, List.nil_append] at hskip ⊢
  rw [← hskip, withoutSequences]
  simp only [Nat.lt_irrefl, if_false, List.head?_cons, List.drop_one, List.tail_cons, hafter, List.length_cons, hlen]
  simp

/-- a character that starts no terminal sequence stays -/
theorem withoutSequences_char {c : Char} {r : Text} (hno : ∀ q s, IsSequence q → c :: r ≠ q ++ s) :
    withoutSequences 0 (c :: r) = c :: withoutSequences 0 r := by
  rw [withoutSequences]
  simp only [Nat.lt_irrefl, if_false]
  split_ifs with hstart
  · simp only [Bool.and_eq_true, decide_eq_true_eq] at hstart
    have hc : c = '\x1b' := Char.toNat_inj.1 hstart.1
    obtain ⟨t, rfl⟩ : ∃ t, r = '[' :: t := List.head?_eq_some_iff.1 hstart.2
    split
    · rename_i rest hrest
      obtain ⟨ps, d, ht, hps, hd⟩ := afterSequence_eq_some.1 hrest
      refine absurd ?_ (hno ('\x1b' :: '[' :: (ps ++ [d])) rest ⟨ps, d, rfl, hps, hd⟩)
      rw [List.drop_one, List.tail_cons] at ht
      simp [hc, ht]
    · rfl
  · rfl

theorem stripped_withoutSequences (t : Text) : Stripped t (withoutSequences 0 t) := by
  induction hn : t.length using Nat.strong_induction_on generalizing t with
  | _ n ih =>
    cases t with
    | nil => exact .nil
    | cons c r =>
      by_cases hstart : ∃ q s, IsSequence q ∧ c :: r = q ++ s
      · obtain ⟨q, s, hq, heq⟩ := hstart
        have hlt : s.length < n := by
          obtain ⟨ps, d, rfl, -, -⟩ := hq
          rw [← hn, heq]
          simp
          omega
        rw [heq, withoutSequences_sequence hq]
        exact .sequence hq (ih s.length hlt s rfl)
      · have hno : ∀ q s, IsSequence q → c :: r ≠ q ++ s := fun q s hq heq => hstart ⟨q, s, hq, heq⟩
        rw [withoutSequences_char hno]
        exact .char hno (ih r.length (by simp at hn; omega) r rfl)

/-- **What is echoed** is the text with its terminal sequences taken out, and there is one way to take them out. -/
theorem stripped_iff {t u : Text} : Stripped t u ↔ u = withoutSequences 0 t := by
  constructor
  · intro h
    induction h with
    | nil => rfl
    | sequence hq _ ih => rw [withoutSequences_sequence hq, ih]
    | char hc _ ih => rw [withoutSequences_char hc, ih]
  · rintro rfl
    exact stripped_withoutSequences t

theorem Stripped.eq_self {t u : Text} (h : Stripped t u) (hfree : SequenceFree t) : u = t := by
  induction h with
  | nil => rfl
  | @sequence q r u hq _ _ => exact absurd rfl (hfree [] q r hq)
  | @char c r u _ _ ih => rw [ih fun a q b hq heq => hfree (c :: a) q b hq (by rw [heq]; rfl)]

theorem SequenceFree.left {t u : Text} (h : SequenceFree (t ++ u)) : SequenceFree t :=
  fun a q b hq heq => h a q (b ++ u) hq (by rw [heq]; simp)

end Cli

/-! ## Asking git -/

/-- **What the caller gets.** -/
theorem Repository.run_contents (g : Handle) (screen : Console.Screen) (past : List Record) (commitId path s : Text) (code : Int)
    (rest : List Reply) :
    ((Repository.contents commitId path).run g screen past (.output (Text.Utf8.encode s) [] code :: rest)).result =
        .ok s.unifyNewlines.chopNewline ∧
      ((Repository.contents commitId path).run g screen past (.output (Text.Utf8.encode s) [] code :: rest)).console =
        g.shown screen (g.argv ["show", commitId ++ (':' :: path)]) := by
  have hreply : Reply.nth (.output (Text.Utf8.encode s) [] code :: rest) 0 = .output (Text.Utf8.encode s) [] code := rfl
  have hcaptured : (Record.captured (Text.Utf8.encode s)).chopNewline = s.unifyNewlines.chopNewline := by
    rw [Record.captured, Text.Utf8.decode_encode, Text.chopNewline_closeLines]
  have hscript : Repository.contents commitId path =
      Script.git (.list ["show", commitId ++ (':' :: path)]) false fun r => .done r.stdout.chopNewline := rfl
  rw [hscript, Script.run_git_quiet hreply, Script.run_done, hcaptured]
  exact ⟨rfl, List.append_nil _⟩

namespace Cli

open Job

/-- a script that comes to a value, on a repository that is open -/
theorem runOn_perform {α : Type} {p : Place} {g : Handle} {replies : List Reply} {script : Script α} {a : α}
    (ha : (script.run g p.screen [] replies).result = .ok a) (d : Desk) :
    (perform p g replies script).runOn d =
      (.ok a, { d with output := d.output ++ (script.run g p.screen [] replies).console,
                       sent := d.sent ++ (script.run g p.screen [] replies).sent }) := by
  rw [perform, runOn_bind_ok (runOn_modify _ d), ha]
  rfl

/-- **What is printed.** A command line that asks for a file of a repository that is there comes to an end without a fault,
and what is new on the screen is the contents without terminal sequences and one newline. -/
theorem runWords_contents {p : Place} {o : Options} {d : Desk} {place : Path} {words : List Text} {commitId path : Text}
    (hopens : Opens p o d place) (hwords : Request.ofWords words = some (.contents commitId path o))
    (hquiet : o.verbose = false) (s : Text) (code : Int) (rest : List Reply) :
    ∃ d', (runWords p (.output (Text.Utf8.encode s) [] code :: rest) words).runOn d = (.ok (), d') ∧
      d'.output = d.output ++ (withoutSequences 0 s.unifyNewlines.chopNewline ++ ['\n']) := by
  obtain ⟨g, hverbose, hopen⟩ := openRepository_ok hopens
  obtain ⟨hresult, hconsole⟩ := Repository.run_contents g p.screen [] commitId path s code rest
  rw [Handle.shown_of_quiet (hverbose.trans hquiet)] at hconsole
  have hperform := runOn_perform (p := p) hresult d.made
  have hquery : (query p o (.output (Text.Utf8.encode s) [] code :: rest) (Repository.contents commitId path)).runOn d = _ :=
    (runOn_bind_ok hopen).trans hperform
  have hecho := (runOn_bind_ok (f := echo) hquery).trans (runOn_put _ _)
  rw [runWords, hwords]
  refine ⟨_, hecho, ?_⟩
  simp [hconsole, Desk.made]

/-- a text without terminal sequences is echoed as it is, but for the newline that was taken off -/
theorem withoutSequences_chopNewline {s : Text} (hfree : SequenceFree s) :
    (s.getLast? = some '\n' → withoutSequences 0 s.chopNewline ++ ['\n'] = s) ∧
      (s.getLast? ≠ some '\n' → withoutSequences 0 s.chopNewline = s) := by
  constructor
  · intro hlast
    obtain ⟨u, rfl⟩ := List.getLast?_eq_some_iff.1 hlast
    rw [Text.chopNewline_concat, (stripped_withoutSequences u).eq_self hfree.left]
  · intro hlast
    rw [Text.chopNewline_of_open hlast, (stripped_withoutSequences s).eq_self hfree]

/-! ## Main result -/

/-- **File contents from end to end.** Whatever text git prints, with any exit code and nothing on its error output: the
caller gets it with every CR LF and then every CR as a newline and with one final newline taken off; the program, asked for
the file but not for the commands it sends, in a repository that exists, ends well and prints just that, without terminal
sequences and with one newline behind it. So a text without CR and without terminal sequences comes out as it is if it ends
with a newline, and with one newline more if it does not. -/
theorem contents_reproduced (s : Text) (code : Int) (rest : List Reply) :
    ∃ c t, Text.Chopped (Text.replaceCr (Text.replaceCrLf s)) c ∧ Stripped c t ∧
      (∀ g screen past commitId path,
        ((Repository.contents commitId path).run g screen past (.output (Text.Utf8.encode s) [] code :: rest)).result = .ok c) ∧
      (∀ p o d place words commitId path, Opens p o d place → Request.ofWords words = some (.contents commitId path o) →
        o.verbose = false →
        ∃ d', (runWords p (.output (Text.Utf8.encode s) [] code :: rest) words).runOn d = (.ok (), d') ∧
          d'.output = d.output ++ (t ++ ['\n'])) ∧
      ('\r' ∉ s → SequenceFree s →
        (s.getLast? = some '\n' → t ++ ['\n'] = s) ∧ (s.getLast? ≠ some '\n' → t = s)) := by
  refine ⟨s.unifyNewlines.chopNewline, withoutSequences 0 s.unifyNewlines.chopNewline, ?_,
    stripped_withoutSequences _, ?_, ?_, ?_⟩
  · rw [← Text.unifyNewlines_eq]
    exact Text.chopped_chopNewline _
  · intro g screen past commitId path
    exact (Repository.run_contents g screen past commitId path s code rest).1
  · intro p o d place words commitId path hopens hwords hquiet
    exact runWords_contents hopens hwords hquiet s code rest
  · intro hcr hfree
    rw [Text.unifyNewlines_of_no_cr hcr]
    exact withoutSequences_chopNewline hfree

/-- a coloured file with an old line end, shown from a working directory that is a repository -/
theorem contents_reproduced_coloured :
    let p : Place := .plain "/home/a" "/r" ["/r/.git"] 80
    let words : List Text := ["show", "HEAD", "a.txt"]
    let o : Options := ⟨none, none, false, false⟩
    Opens p o (.fresh none) ⟨.top, ["r"]⟩ ∧ Request.ofWords words = some (.contents "HEAD" "a.txt" o) ∧
      ∃ d', (runWords p [.output (Text.Utf8.encode "\x1b[31mé\x1b[0m\r\n\n") [] 1] words).runOn (.fresh none) =
          (.ok (), d') ∧ d'.output = "é\n\n".toList := by
  intro p words o
  have husable : Settings.Usable p (.fresh none)
      (.map none
        [(.text "repo_path", .null), (.text "mainline_branch", .text Settings.mainlineDefault),
         (.text "remote", .text Settings.remoteDefault), (.text "git_binary", .text Settings.binaryDefault)]) "git" :=
    ⟨⟨Settings.initial, rfl, rfl⟩, rfl⟩
  have hopens : Opens p o (.fresh none) ⟨.top, ["r"]⟩ := ⟨⟨_, _, husable⟩, ⟨"/r", rfl, by decide⟩, by decide⟩
  have hwords : Request.ofWords words = some (.contents "HEAD" "a.txt" o) := by decide
  obtain ⟨c, t, hc, ht, -, hprinted, -⟩ := contents_reproduced "\x1b[31mé\x1b[0m\r\n\n" 1 []
  obtain ⟨d', hrun, hout⟩ := hprinted p o (.fresh none) ⟨.top, ["r"]⟩ words "HEAD" "a.txt" hopens hwords rfl
  refine ⟨hopens, hwords, d', hrun, ?_⟩
  have hchopped : c = "\x1b[31mé\x1b[0m\n".toList := by
    rcases hc with hc | ⟨-, hc⟩
    · exact (List.append_left_injective ['\n'] hc).symm
    · exact absurd rfl hc
  rw [hout, stripped_iff.1 ht, hchopped]
  decide

end Cli
end RepoLens
