import QuantumCircuit.Proofs.Modes

/-!
# The angle prompt

The prompt opens on one key, and until it is closed again all keys go to its text: nothing else of
the session changes, and nothing is asked of its surroundings (`Session.handle_of_open`).  Nothing
is written in a prompt that is closed, so a session whose prompt has been opened and cancelled is
the one that it was before, whatever has been typed in between.

* `Terminal.cancel_restores` : cancelling the prompt takes back all that was done since it opened.
-/

namespace QuantumCircuit

/-- The event closes the angle prompt or ends the session: enter, escape, or control and `c`. -/
def Event.endsPrompt : Event → Bool
  | .press key =>
    key.code == .enter || key.code == .escape || (key.code == .char 'c' && key.control)
  | _ => false

namespace Session

variable {n d : Nat} {s : Session n d} {key : Key} {e : Event}

/-! ### Opening the prompt -/

theorem focus_rotateSelected (s : Session n d) (steps : Binary64) :
    (s.rotateSelected steps).focus = s.focus := by
  unfold rotateSelected
  split <;> rfl

theorem focus_served (reply : Option String) (result : Session n d × Request) :
    (served reply result).focus = result.1.focus := by
  obtain ⟨s, request⟩ := result
  cases request <;> rfl

/-- The prompt opens on the gate under the cursor, and nothing else changes. -/
theorem openPrompt_of_opens (hs : s.focus ≠ .anglePrompt)
    (hopens : s.openPrompt.focus = .anglePrompt) :
    ∃ prompt, s.openPrompt = { s with prompt, focus := .anglePrompt } := by
  unfold openPrompt at hopens ⊢
  split at hopens
  · rename_i hkind
    exact ⟨_, if_pos hkind⟩
  · split at hopens <;> exact absurd hopens hs

/-- A key of the circuit panel that opens the prompt does nothing else. -/
theorem handleGateKey_of_opens (hs : s.focus ≠ .anglePrompt)
    (hopens : (s.handleGateKey key).1.focus = .anglePrompt) :
    key.code = .char 'r' ∧
      ∃ prompt, s.handleGateKey key = ({ s with prompt, focus := .anglePrompt }, .nothing) := by
  have hturn := s.gateTurn_handleGateKey key
  generalize s.handleGateKey key = result at hturn hopens ⊢
  cases hturn with
  | prompted hkey =>
    obtain ⟨prompt, hprompt⟩ := openPrompt_of_opens hs hopens
    exact ⟨hkey, prompt, by rw [hprompt]⟩
  | openProgram => cases hopens
  | turned steps => exact absurd ((s.focus_rotateSelected steps).symm.trans hopens) hs
  | _ => exact absurd hopens hs

theorem handleCircuitKey_of_opens (hs : s.focus ≠ .anglePrompt)
    (hopens : (s.handleCircuitKey key).1.focus = .anglePrompt) :
    key.code = .char 'r' ∧
      ∃ prompt, s.handleCircuitKey key = ({ s with prompt, focus := .anglePrompt }, .nothing) := by
  unfold handleCircuitKey at hopens ⊢
  split at hopens
  · split at hopens <;> exact absurd hopens hs
  · rename_i hhelp
    rw [if_neg hhelp]
    split at hopens
    · split at hopens <;> exact absurd hopens hs
    · rename_i hcontrol
      rw [if_neg hcontrol]
      exact handleGateKey_of_opens hs hopens

theorem focus_handleProgramKey (hs : s.focus = .program) :
    (s.handleProgramKey key).1.focus ≠ .anglePrompt := by
  have hopen : s.focus ≠ .anglePrompt := by
    rw [hs]
    exact Focus.noConfusion
  unfold handleProgramKey
  cases key.code with
  | tab | escape => exact Focus.noConfusion
  | char _ => split <;> first | contradiction | exact hopen
  | _ => exact hopen

/-- An event that opens the prompt is one key of the circuit panel, and does nothing else. -/
theorem handle_of_opens (hs : s.focus ≠ .anglePrompt)
    (hopens : (s.handle e).1.focus = .anglePrompt) :
    (∃ key, e = .press key ∧ key.code = .char 'r') ∧ s.focus = .circuit ∧
      ∃ prompt, s.handle e = ({ s with prompt, focus := .anglePrompt }, .nothing) := by
  unfold handle at hopens ⊢
  cases e with
  | press key =>
    dsimp only at hopens ⊢
    unfold handleKey at hopens ⊢
    split at hopens
    · exact absurd hopens hs
    · rename_i hquit
      rw [if_neg hquit]
      cases hfocus : s.focus with
      | circuit =>
        rw [hfocus] at hopens
        obtain ⟨hcode, hopen⟩ := handleCircuitKey_of_opens hs hopens
        exact ⟨⟨key, rfl, hcode⟩, rfl, hopen⟩
      | program =>
        rw [hfocus] at hopens
        exact absurd hopens (focus_handleProgramKey hfocus)
      | anglePrompt => exact absurd hfocus hs
  | _ => exact absurd hopens hs

/-! ### Typing -/

theorem handle_press_of_open (hs : s.focus = .anglePrompt)
    (hkey : ¬(key.code = .char 'c' ∧ key.control = true)) :
    s.handle (.press key) = (s.handlePromptKey key, .nothing) := by
  rw [handle, handleKey, if_neg (by simpa using hkey), hs]

/-- While the prompt is open, only its text changes. -/
theorem handle_of_open (hs : s.focus = .anglePrompt) (he : e.endsPrompt = false) :
    ∃ prompt, s.handle e = ({ s with prompt }, .nothing) := by
  cases e with
  | press key =>
    simp only [Event.endsPrompt, Bool.or_eq_false_iff, Bool.and_eq_false_iff, beq_eq_false_iff_ne]
      at he
    obtain ⟨⟨henter, hescape⟩, hquit⟩ := he
    rw [handle_press_of_open hs fun ⟨hcode, hcontrol⟩ =>
      hquit.elim (absurd hcode) fun hnot => by simp [hcontrol] at hnot]
    unfold handlePromptKey
    cases hcode : key.code with
    | escape => exact absurd hcode hescape
    | enter => exact absurd hcode henter
    | backspace => exact ⟨_, rfl⟩
    | char ch =>
      dsimp only
      unfold typeChar
      split
      · exact ⟨_, rfl⟩
      · exact ⟨s.prompt, rfl⟩
    | _ => exact ⟨s.prompt, rfl⟩
  | _ => exact ⟨s.prompt, rfl⟩

theorem handle_escape (hs : s.focus = .anglePrompt) (hkey : key.code = .escape) :
    s.handle (.press key) = (s.cancelPrompt, .nothing) := by
  rw [handle_press_of_open hs fun ⟨hcode, _⟩ => by simp [hkey] at hcode, handlePromptKey, hkey]

end Session

namespace Terminal

variable {n d : Nat} {t t' t'' : Terminal n d}

/-! ### On a terminal -/

/-- What an event does to a terminal whose session asks for nothing. -/
theorem run_of_nothing {e : Event} {s : Session n d} (h : t.session.handle e = (s, .nothing)) :
    (t.run e).session = s ∧ (t.run e).folder = t.folder ∧ (t.run e).hasEnded = t.hasEnded ∧
      (t.hasEnded = false → (t.run e).drawn = some s) := by
  have hresize : (t.resize e).folder = t.folder ∧ (t.resize e).hasEnded = t.hasEnded := by
    cases e <;> exact ⟨rfl, rfl⟩
  unfold run
  rw [h]
  dsimp only [serve]
  rw [hresize.2]
  split
  · rename_i hended
    exact ⟨rfl, hresize.1, rfl, fun hnot => by rw [hended] at hnot; cases hnot⟩
  · exact ⟨rfl, hresize.1, rfl, fun _ => rfl⟩

/-- Only the text of the prompt is another one. -/
structure SameButPrompt (t t' : Terminal n d) : Prop where
  session_eq : ∃ prompt, t'.session = { t.session with prompt }
  folder_eq : t'.folder = t.folder
  hasEnded_eq : t'.hasEnded = t.hasEnded

theorem sameButPrompt_foldl {events : List Event} (hs : t.session.focus = .anglePrompt)
    (hevents : ∀ e ∈ events, e.endsPrompt = false) : t.SameButPrompt (events.foldl run t) := by
  induction events generalizing t with
  | nil => exact ⟨⟨t.session.prompt, rfl⟩, rfl, rfl⟩
  | cons e rest ih =>
    obtain ⟨he, hrest⟩ := List.forall_mem_cons.1 hevents
    obtain ⟨prompt, hhandle⟩ := Session.handle_of_open hs he
    obtain ⟨hsession, hfolder, hended, -⟩ := run_of_nothing hhandle
    have hnext := ih (t := t.run e) (by rw [hsession]; exact hs) hrest
    obtain ⟨prompt', hsession'⟩ := hnext.session_eq
    refine ⟨⟨prompt', ?_⟩, hnext.folder_eq.trans hfolder, hnext.hasEnded_eq.trans hended⟩
    rw [List.foldl_cons, hsession', hsession]

/-- Cancelling the angle prompt takes back all that was done since it opened.  Only one key opens
it; and if then any events come that neither close it nor end the session, and after them escape,
the session is again the one that it was before, on the screen too, no file has been written, and
the session has not ended. -/
theorem cancel_restores {settings : Settings} {t : Terminal settings.wires settings.depth}
    (h : t.session.Reached settings) {opening : Event}
    (hclosed : t.session.focus ≠ .anglePrompt)
    (hopens : (t.run opening).session.focus = .anglePrompt) :
    (∃ key, opening = .press key ∧ key.code = .char 'r') ∧
    ∀ events : List Event, (∀ e ∈ events, e.endsPrompt = false) →
      ∀ key : Key, key.code = .escape →
        let cancelled := (opening :: events ++ [Event.press key]).foldl run t
        cancelled.session = t.session ∧ cancelled.folder = t.folder ∧
          cancelled.hasEnded = t.hasEnded ∧
          (t.hasEnded = false → cancelled.drawn = some t.session) := by
  have hfocus : (t.session.handle opening).1.focus = .anglePrompt := by
    obtain ⟨reply, hreply⟩ := t.session_run opening
    rwa [hreply, Session.after, Session.focus_served] at hopens
  obtain ⟨hkey, hcircuit, prompt, hhandle⟩ := Session.handle_of_opens hclosed hfocus
  refine ⟨hkey, fun events hevents key hescape => ?_⟩
  obtain ⟨hsession, hfolder, hended, -⟩ := run_of_nothing hhandle
  have htyped := sameButPrompt_foldl (t := t.run opening) (by rw [hsession]) hevents
  obtain ⟨typed, hsession'⟩ := htyped.session_eq
  rw [hsession] at hsession'
  have hcancel := Session.handle_escape (s := (events.foldl run (t.run opening)).session)
    (by rw [hsession']) hescape
  -- What is left of the prompt is the focus and the text, and both were like this before.
  have hsame : (events.foldl run (t.run opening)).session.cancelPrompt = t.session := by
    rw [hsession', Session.cancelPrompt, ← h.coherent.prompt_eq hclosed, ← hcircuit]
  rw [hsame] at hcancel
  obtain ⟨hsession'', hfolder', hended', hdrawn⟩ := run_of_nothing hcancel
  simp only [List.cons_append, List.foldl_cons, List.foldl_append, List.foldl_nil]
  have hendedAll : (events.foldl run (t.run opening)).hasEnded = t.hasEnded :=
    htyped.hasEnded_eq.trans hended
  exact ⟨hsession'', hfolder'.trans (htyped.folder_eq.trans hfolder), hended'.trans hendedAll,
    fun hgoing => hdrawn (hendedAll.trans hgoing)⟩

/-- A terminal on which an X gate has been put down and turned by a step. -/
def turned : Terminal Session.smallSettings.wires Session.smallSettings.depth :=
  [.char 'x', .char '+'].map (fun code => Event.press { code }) |>.foldl run
    (.start (.start (.start Session.smallSettings.rotationStep) Session.smallSettings.output) 80 24)

/-- Events that write in the prompt, or would do something if it were not open. -/
def typing : List Event :=
  [.press { code := .char '/' }, .press { code := .char '7' }, .press { code := .char 'x' },
    .press { code := .char 's', control := true }, .press { code := .char 'C', control := true },
    .press { code := .tab }, .press { code := .up, shift := true }, .paste "pi", .resize 40 12,
    .idle, .release { code := .enter }] ++
    List.replicate 20 (.press { code := .backspace })

theorem reached_turned : turned.session.Reached Session.smallSettings :=
  reached_run (.start (Editor.ofSettings_eq_ok (by decide +kernel))) _

theorem cancel_restores_turned :
    turned.session.Reached Session.smallSettings ∧ turned.session.focus ≠ .anglePrompt ∧
      turned.session.editor.status = "theta = 9*pi/8" ∧
      (turned.run (.press { code := .char 'r' })).session.focus = .anglePrompt ∧
      (∀ e ∈ typing, e.endsPrompt = false) ∧
      ((Event.press { code := .char 'r' } :: typing ++ [Event.press { code := .escape }]).foldl run
        turned).session = turned.session := by
  have hclosed : turned.session.focus ≠ .anglePrompt := by decide +kernel
  have hopens : (turned.run (.press { code := .char 'r' })).session.focus = .anglePrompt := by
    decide +kernel
  have htyping : ∀ e ∈ typing, e.endsPrompt = false := by decide
  have h := (cancel_restores reached_turned hclosed hopens).2 typing htyping { code := .escape } rfl
  exact ⟨reached_turned, hclosed, by decide +kernel, hopens, htyping, h.1⟩

end Terminal

end QuantumCircuit
