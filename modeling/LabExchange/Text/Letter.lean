import LabExchange.Text.LetterTable
import LabExchange.Text.Ranges

/-!
# Letters and digits

Whether a character is a letter or belongs to a number, in any script.
-/
namespace LabExchange.Text

def isAlphabetic (c : Char) : Bool := inRanges alphabeticRanges c

def isNumeric (c : Char) : Bool := inRanges numberRanges c

def isAlphanumeric (c : Char) : Bool := isAlphabetic c || isNumeric c

end LabExchange.Text
