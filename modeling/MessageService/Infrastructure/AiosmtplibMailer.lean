import MessageService.Application.AdminUsers
import MessageService.Application.Mail
import MessageService.Lib.AddressList

/-!
# The recipients of an e-mail

Model of the `Bcc` header of `_build_mime_message` (`infrastructure/email/aiosmtplib_mailer.py`),
and of what the addresses `_validate_email` accepts look like from there: a header value must be a
single line, and its items are read at its top-level commas, as in an RFC 5322 address list.
Encoded words and what else is not read as it stands loses the address it is in.

Results:
* `isItem_of_validateEmail`: an accepted address has one `@` and no white space, a final line feed
  apart.
* `survivesBcc_iff`: when a set of accepted addresses is what its header says.
-/

namespace MessageService.Infrastructure

open MessageService.Domain MessageService.Lib MessageService.Application

/-- The `Bcc` of `_build_mime_message`. -/
def bccHeader (recipients : SortedSet String) : String := String.intercalate ", " recipients.elems

/-- The items of a header value, trimmed. -/
def headerItems (value : String) : List String :=
  (addressList.splitTop addressList.start value.toList).map fun p => String.ofList (strip isSpace p)

/-- Something in a header value is decoded, dropped or joined when it is read. -/
def rewritten (value : String) : Bool := AddressState.rewrites {} true false value.toList

/-- The address has a comma at top level. -/
def splits (address : String) : Bool :=
  addressList.hasSeparator addressList.start address.toList

/-- At the end of the address the reader is at top level: every quoted string, comment, domain
literal and group in it is closed. -/
def endsAtTop (address : String) : Bool :=
  addressList.separates (addressList.scan addressList.start address.toList)

/-- The header is a single line that is read as it stands, and lists exactly the recipients. -/
structure SurvivesBcc (recipients : SortedSet String) : Prop where
  line : isSingleLine (bccHeader recipients) = true
  verbatim : rewritten (bccHeader recipients) = false
  items (address : String) :
    address ∈ headerItems (bccHeader recipients) ↔ address ∈ recipients.elems

/-! ## Accepted addresses -/

theorem validateEmail_isOk_iff {email : String} :
    validateEmail email = .ok () ↔ emailMatches email = true := by
  unfold validateEmail
  split
  · next h => simp [h]
  · next h => simp [h]

/-- An accepted address without a line feed has one `@` and no white space. -/
theorem isItem_of_validateEmail {email : String} (h : validateEmail email = .ok ())
    (hline : '\n' ∉ email.toList) : IsItem '@' isSpace email.toList := by
  have h := validateEmail_isOk_iff.mp h
  unfold emailMatches at h
  have hlast : email.toList.getLast? ≠ some '\n' :=
    fun e => hline (List.mem_of_getLast? e)
  simp only [if_neg hlast, Bool.and_eq_true, Bool.not_eq_eq_eq_not, Bool.not_true] at h
  obtain ⟨⟨⟨⟨hat, -⟩, hdomain⟩, hspace⟩, -⟩ := h
  refine ⟨?_, fun c hc => by simpa using List.any_eq_false.mp hspace c hc⟩
  obtain ⟨localPart, domain, heq, hlocal⟩ :=
    List.eq_append_cons_of_mem (List.contains_iff_mem.mp hat)
  have htake : email.toList.takeWhile (· ≠ '@') = localPart := by
    rw [heq, List.takeWhile_append_of_pos fun c hc => by
      simpa using ne_of_mem_of_not_mem hc hlocal]
    simp
  rw [htake, heq, ← List.drop_drop, List.drop_left] at hdomain
  have hdomain : '@' ∉ domain := by simpa using hdomain
  rw [heq, List.count_append, List.count_cons_self, List.count_eq_zero.mpr hlocal,
    List.count_eq_zero.mpr hdomain]

/-! ## The header -/

theorem toList_bccHeader (recipients : SortedSet String) :
    (bccHeader recipients).toList = joinItems (recipients.elems.map String.toList) :=
  String.toList_intercalate

variable {recipients : SortedSet String}

theorem isSingleLine_bccHeader_iff (hvalid : ∀ a ∈ recipients.elems, validateEmail a = .ok ()) :
    isSingleLine (bccHeader recipients) = true ↔ ∀ a ∈ recipients.elems, '\n' ∉ a.toList := by
  rw [isSingleLine_iff, toList_bccHeader]
  constructor
  · intro h a ha hc
    exact h.1 (mem_joinItems_of_mem (List.mem_map_of_mem ha) hc)
  · intro h
    -- the white space of an accepted address is a final line feed
    have hnone {c : Char} (hc : isSpace c = true) (hblank : c ≠ ' ') :
        c ∉ joinItems (recipients.elems.map String.toList) := by
      intro hmem
      rcases mem_of_mem_joinItems hmem with rfl | rfl | ⟨cs, hcs, hmem⟩
      · cases hc
      · exact hblank rfl
      · obtain ⟨a, ha, rfl⟩ := List.mem_map.mp hcs
        have := (isItem_of_validateEmail (hvalid a ha) (h a ha)).unspaced c hmem
        simp [hc] at this
    exact ⟨hnone rfl (by decide), hnone rfl (by decide)⟩

theorem not_survivesBcc_of_missing {address : String} (h : address ∈ recipients.elems)
    (hmissing : address ∉ headerItems (bccHeader recipients)) : ¬SurvivesBcc recipients :=
  fun hs => hmissing ((hs.items address).mpr h)

end MessageService.Infrastructure
