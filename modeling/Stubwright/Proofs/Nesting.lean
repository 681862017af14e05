import Stubwright.Proofs.Elements
import Stubwright.Proofs.Reading

/-!
# How the reader follows the elements

The reader does not keep the names of the open elements; it counts, or looks for one name. This
file says how far it is in step with the elements all the same:

* `run_leaf` — an element that holds no element is read the same, whether it opens and closes at
  once or is a pair of tags.
* `Within.run` — once the reader is no deeper than the text, it stays so: it is between types again
  as soon as everything that was open has ended (`focus_of_within_nil`).
-/

namespace Stubwright.Library

open Java Markup

namespace Reading

variable {r r' : Reading} {d : Descriptor} {m : Member} {tag : Tag} {opens : Bool}

/-! ## Elements that hold no element -/

theorem documentChild_pair (hfocus : r.focus = .document) (tag : Tag) (name : String) :
    (r.documentChild true tag >>= fun r' => r'.step (.close name)) = r.documentChild false tag := by
  unfold documentChild
  split
  · rw [ok_bind]
    rw [hfocus, step_mk_document]
  · rw [bind_assoc]
    rfl
  · rw [ok_bind]
    simp only [step_mk_skipping, if_true, afterEnd, afterSkipped, ← hfocus]
    rfl

theorem typeChild_pair (hfocus : r.focus = .type d) (tag : Tag) :
    (r.typeChild d true tag >>= fun r' => r'.step (.close tag.name)) = r.typeChild d false tag := by
  unfold typeChild
  dsimp only
  split
  · rw [bind_assoc]
    rfl
  · rw [bind_assoc]
    rfl
  · next hname =>
    -- the end tag names the method, so it is its own
    rw [bind_assoc]
    simp only [pure_bind, if_true, step_mk_method, hname, beq_self_eq_true]
    rfl
  · rw [ok_bind]
    simp only [step_mk_skipping, if_true, afterEnd, afterSkipped, ← hfocus]
    rfl

/-- **A pair of tags with nothing between them is read like one tag.** Inside a method this is so
unless the end tag is taken for the method's own. -/
theorem run_leaf {e : Element} (hleaf : e.children = [])
    (hname : ∀ d m, r.focus = .method d m → e.tag.name ≠ "method") :
    r.run e.events = r.step (.empty e.tag) := by
  cases e with
  | single tag => exact run_singleton _
  | paired tag children =>
    obtain rfl : children = [] := hleaf
    have hpair : r.run (Element.paired tag []).events
        = r.step (.start tag) >>= fun r' => r'.step (.close tag.name) := by
      have hevents : (Element.paired tag []).events = [.start tag, .close tag.name] := rfl
      simp only [hevents, run_cons, run_nil]
      cases r.step (.start tag) with
      | error e => rfl
      | ok r' => exact run_singleton _
    rw [hpair]
    cases hfocus : r.focus with
    | document =>
      have hstart : r.step (.start tag) = r.documentChild true tag := by simp only [step_document hfocus]
      rw [hstart, documentChild_pair hfocus]
      simp only [step_document hfocus]
      rfl
    | type d =>
      have hstart : r.step (.start tag) = r.typeChild d true tag := by simp only [step_type hfocus]
      rw [hstart, typeChild_pair hfocus]
      simp only [step_type hfocus]
      rfl
    | method d m =>
      -- the end tag is passed over, since it is not the method's
      have hname : (tag.name == "method") = false := beq_eq_false_iff_ne.mpr (hname d m hfocus)
      simp only [step_method hfocus, step_mk_method, bind_assoc, ok_bind, hname, Bool.false_eq_true, if_false]
      rfl
    | skipping d? depth =>
      simp only [step_skipping hfocus, step_mk_skipping, ok_bind, afterEnd, Except.ok.injEq]
      rw [← hfocus]

theorem run_single {tag : Tag} (hname : ∀ d m, r.focus = .method d m → tag.name ≠ "method") :
    r.run (Element.single tag).events = r.run (Element.paired tag []).events := by
  rw [run_leaf rfl hname, run_leaf rfl hname]
  rfl

/-! ## No deeper than the text -/

/-- With the elements that are open in the text, innermost first: when all of them have ended, the
reader is between types. -/
def Within (opened : List String) : Focus → Prop
  | .document => True
  | .type _ => opened ≠ []
  | .method _ _ => ∃ inner outer, opened = inner ++ "method" :: outer ∧ outer ≠ []
  | .skipping d? depth => depth + d?.toList.length < opened.length

theorem Within.documentChild {opened : List String} (h : r.documentChild opens tag = .ok r')
    (hfocus : r.focus = .document) :
    Within (if opens then tag.name :: opened else opened) r'.focus := by
  rcases documentChild_cases h with ⟨-, rfl⟩ | ⟨d, -, -, hr⟩ | ⟨-, -, rfl⟩
  · rw [hfocus]
    trivial
  · cases opens with
    | true =>
      obtain rfl := hr
      exact List.cons_ne_nil _ _
    | false =>
      obtain ⟨L, L', -, -, rfl⟩ := addType_eq_ok_iff.mp hr
      trivial
  · cases opens with
    | true => exact Nat.succ_pos _
    | false =>
      show Within opened r.focus
      rw [hfocus]
      trivial

theorem Within.typeChild {opened : List String} (hne : opened ≠ [])
    (h : r.typeChild d opens tag = .ok r') (hfocus : r.focus = .type d) :
    Within (if opens then tag.name :: opened else opened) r'.focus := by
  have hlength : 0 < opened.length := List.length_pos_iff.mpr hne
  rcases typeChild_cases h with ⟨d', name, -, rfl⟩ | ⟨m, hname, -, rfl⟩ | rfl
  · cases opens with
    | true => simpa [Within] using hlength
    | false => exact hne
  · cases opens with
    | true => exact ⟨[], opened, by rw [hname]; rfl, hne⟩
    | false => exact hne
  · cases opens with
    | true => simpa [Within] using hlength
    | false =>
      show Within opened r.focus
      rw [hfocus]
      exact hne

theorem Within.methodStep {opened opened' : List String} {event : Event}
    (h : Within opened (.method d m)) (hopen : nest opened event = some opened')
    (hfocus : r.focus = .method d m) (hstep : r.step event = .ok r') : Within opened' r'.focus := by
  obtain ⟨inner, outer, rfl, hne⟩ := h
  rcases methodStep_cases hfocus hstep with
    ⟨tag, m', rfl | rfl, -, rfl⟩ | ⟨rfl, rfl⟩ | ⟨name, rfl, hname, rfl⟩
  · cases hopen
    exact ⟨tag.name :: inner, outer, rfl, hne⟩
  · cases hopen
    exact ⟨inner, outer, rfl, hne⟩
  · -- the end tag is the method's own, or one inside it that is taken for it
    rw [nest_close_eq_some_iff] at hopen
    show opened' ≠ []
    rcases List.append_eq_cons_iff.mp hopen with ⟨-, hown⟩ | ⟨inner, -, rfl⟩
    · rwa [← List.tail_eq_of_cons_eq hown]
    · simp
  · -- the end tag is one inside the method
    rw [nest_close_eq_some_iff] at hopen
    rw [hfocus]
    rcases List.append_eq_cons_iff.mp hopen with ⟨-, hown⟩ | ⟨inner, -, rfl⟩
    · exact absurd (List.head_eq_of_cons_eq hown).symm hname
    · exact ⟨inner, outer, rfl, hne⟩

theorem Within.skippingStep {opened opened' : List String} {event : Event}
    {d? : Option Descriptor} {depth : Nat} (h : depth + d?.toList.length < opened.length)
    (hopen : nest opened event = some opened') (hfocus : r.focus = .skipping d? depth)
    (hstep : r.step event = .ok r') : Within opened' r'.focus := by
  rcases skippingStep_cases hfocus hstep with
    ⟨tag, rfl, rfl⟩ | ⟨tag, rfl, rfl⟩ | ⟨name, rfl, rfl, rfl⟩ | ⟨name, inner, rfl, rfl, rfl⟩
  · cases hopen
    show depth + 1 + d?.toList.length < (tag.name :: opened).length
    rw [List.length_cons]
    omega
  · cases hopen
    rw [hfocus]
    exact h
  · rw [nest_close_eq_some_iff.mp hopen, List.length_cons] at h
    cases d? with
    | none => trivial
    | some d =>
      rw [Option.toList_some, List.length_singleton] at h
      show opened' ≠ []
      exact List.length_pos_iff.mp (by omega)
  · rw [nest_close_eq_some_iff.mp hopen, List.length_cons] at h
    show inner + d?.toList.length < opened'.length
    omega

/-- **Every event keeps the reader within the open elements.** -/
theorem Within.step {opened opened' : List String} {event : Event} (h : Within opened r.focus)
    (hopen : nest opened event = some opened') (hstep : r.step event = .ok r') :
    Within opened' r'.focus := by
  cases hfocus : r.focus with
  | document =>
    cases event with
    | start tag | empty tag =>
      cases hopen
      simp only [Reading.step_document hfocus] at hstep
      exact Within.documentChild hstep hfocus
    | close name =>
      simp only [Reading.step_document hfocus] at hstep
      cases hstep
      rw [hfocus]
      trivial
  | type d =>
    have hne : opened ≠ [] := by rwa [hfocus] at h
    cases event with
    | start tag | empty tag =>
      cases hopen
      simp only [Reading.step_type hfocus] at hstep
      exact Within.typeChild hne hstep hfocus
    | close name =>
      simp only [Reading.step_type hfocus] at hstep
      obtain ⟨L, L', -, -, rfl⟩ := addType_eq_ok_iff.mp hstep
      trivial
  | method d m => exact Within.methodStep (hfocus ▸ h) hopen hfocus hstep
  | skipping d? depth =>
    rw [hfocus] at h
    exact Within.skippingStep h hopen hfocus hstep

/-- **So does every run.** -/
theorem Within.run {opened opened' : List String} {events : List Event}
    (h : Within opened r.focus) (hopen : openAfter opened events = some opened')
    (hrun : r.run events = .ok r') : Within opened' r'.focus := by
  induction events generalizing r opened with
  | nil =>
    cases hopen
    cases hrun
    exact h
  | cons event events ih =>
    rw [run_cons, bind_eq_ok] at hrun
    obtain ⟨next, hstep, hrun⟩ := hrun
    obtain ⟨between, hnest, hopen⟩ := openAfter_cons hopen
    exact ih (h.step hnest hstep) hopen hrun

/-- When everything that was open has ended, the reader is between types. -/
theorem focus_of_within_nil {focus : Focus} (h : Within [] focus) : focus = .document := by
  cases focus with
  | document => rfl
  | type d => exact absurd rfl h
  | method d m =>
    obtain ⟨inner, outer, heq, -⟩ := h
    simp at heq
  | skipping d? depth => exact absurd h (Nat.not_lt_zero _)

end Reading

/-- A document is read from the events of its elements. -/
theorem ofDocument_written {es : List Element} {text : String} (h : Written es text.toList) :
    ofDocument text = ({} : Reading).run (eventsOf es) >>= Reading.finish := by
  rw [ofDocument, scan_written h, ofTranscript_of_fault?_eq_none rfl]

end Stubwright.Library
