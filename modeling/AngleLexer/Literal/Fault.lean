import AngleLexer.Text.Basic

/-!
# Literals without a value

Reading says only where a literal ends. Finding its value can still fail, and a `LiteralFault` is
the reason.
-/

namespace AngleLexer

/-- Why a literal has no value. -/
inductive LiteralFault where
  /-- the text does not stand between two quotes -/
  | unquoted (text : Text)
  /-- an escape sequence that is none, or a code point with too large a number -/
  | badEscape (escape : Text)
  /-- a number that is no Unicode scalar value -/
  | badCodePoint (value : Nat)
  /-- a group of braces that does not hold a code point -/
  | badGroup (content : Text)
  /-- the text is no number, or an integer out of range -/
  | badNumber (text : Text)
deriving DecidableEq

/-- What a message to the user says about a literal without a value. -/
def LiteralFault.message : LiteralFault → Text
  | unquoted text => "文字列リテラルではありません: ".toList ++ text
  | badEscape escape => "不正なエスケープシーケンス: '".toList ++ escape ++ ['\'']
  | badCodePoint value => "不正なコードポイント: 0x".toList ++ Text.hexOfNat value
  | badGroup content =>
    "波括弧内の内容に対応していません: '\x7b".toList ++ content ++ "\x7d'".toList
  | badNumber text => "不正な数値リテラル: '".toList ++ text ++ ['\'']

end AngleLexer
